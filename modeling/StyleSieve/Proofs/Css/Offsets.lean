import StyleSieve.Proofs.Css.Closing

/-!
# Offsets

The number that a component carries is the number of characters before the lexeme that it was
read from.  Components stand in their tree as they stand in the text: what a block encloses
comes before everything after the block.
-/

namespace StyleSieve.Css

namespace Component

mutual

/-- A component and all components that it encloses, in their order. -/
def nodes : Component → List Component
  | .token offset value => [.token offset value]
  | .block offset opening content => .block offset opening content :: nodesAll content

/-- Some components and all components that they enclose, in their order. -/
def nodesAll : List Component → List Component
  | [] => []
  | component :: rest => component.nodes ++ nodesAll rest

end

theorem nodesAll_append (first second : List Component) :
    nodesAll (first ++ second) = nodesAll first ++ nodesAll second := by
  induction first with
  | nil => rfl
  | cons component rest ih => rw [List.cons_append, nodesAll, nodesAll, ih, List.append_assoc]

theorem mem_nodesAll {node : Component} {components : List Component} :
    node ∈ nodesAll components ↔ ∃ component ∈ components, node ∈ component.nodes := by
  induction components with
  | nil => simp [nodesAll]
  | cons component rest ih => simp [nodesAll, ih]

theorem mem_nodesAll_reverse {node : Component} {components : List Component} :
    node ∈ nodesAll components.reverse ↔ node ∈ nodesAll components := by
  simp [mem_nodesAll]

theorem mem_nodes_self (component : Component) : component ∈ component.nodes := by
  cases component with
  | token offset value => exact List.mem_singleton_self _
  | block offset opening content => exact List.mem_cons_self

theorem subset_nodesAll (components : List Component) : components ⊆ nodesAll components :=
  fun component member => mem_nodesAll.2 ⟨component, member, mem_nodes_self component⟩

/-- The lexeme that a component was read from. -/
def lexeme : Component → Lexeme
  | .token _ (.fault (.strayCloser closer)) => .closer closer
  | .token _ value => .token value
  | .block _ opening _ => .opening opening

/-! ## Components and what comes after them -/

/-- Whether a component comes before a place in the text.  The two lexemes of a broken string
have one offset; what a block encloses is left behind with the block. -/
def Precedes (component : Component) (place : Nat) : Prop :=
  match component with
  | .token offset _ => offset ≤ place
  | .block .. => ∀ node ∈ component.nodes, node.offset < place

theorem Precedes.nodes {component : Component} {place : Nat} (precedes : component.Precedes place) :
    ∀ node ∈ component.nodes, node.offset ≤ place := by
  cases component with
  | token offset value =>
      intro node isNode
      rw [List.mem_singleton.1 isNode]
      exact precedes
  | block offset opening content => exact fun node isNode => (precedes node isNode).le

mutual

/-- Whether components stand in a component as they stand in the text. -/
def Ordered : Component → Prop
  | .token .. => True
  | .block _ _ content => OrderedAll content

/-- Whether components stand in a list as they stand in the text, at any depth. -/
def OrderedAll : List Component → Prop
  | [] => True
  | component :: rest =>
      component.Ordered ∧ (∀ node ∈ nodesAll rest, component.Precedes node.offset) ∧ OrderedAll rest

end

theorem orderedAll_append {first second : List Component} :
    OrderedAll (first ++ second) ↔ OrderedAll first ∧ OrderedAll second ∧
      ∀ component ∈ first, ∀ node ∈ nodesAll second, component.Precedes node.offset := by
  induction first with
  | nil => simp [OrderedAll]
  | cons component rest ih =>
      simp only [List.cons_append, OrderedAll, ih, nodesAll_append, List.mem_append,
        List.forall_mem_cons, or_imp, forall_and]
      tauto

theorem orderedAll_concat {components : List Component} {last : Component} :
    OrderedAll (components ++ [last]) ↔ OrderedAll components ∧ last.Ordered ∧
      ∀ component ∈ components, ∀ node ∈ last.nodes, component.Precedes node.offset := by
  rw [orderedAll_append]
  simp [OrderedAll, nodesAll]

end Component

open Component

/-! ## Nesting -/

/-- The components read before a place, inside open blocks. -/
structure ReadUpTo (place : Nat) (blocks : List OpenBlock) (before : List Component) : Prop where
  inner : ∀ component ∈ before, component.Precedes place
  openings : ∀ block ∈ blocks, block.offset ≤ place
  outer : ∀ block ∈ blocks, ∀ component ∈ block.before, component.Precedes place

theorem ReadUpTo.cons {place : Nat} {blocks : List OpenBlock} {before : List Component}
    (reached : ReadUpTo place blocks before) {component : Component}
    (precedes : component.Precedes place) : ReadUpTo place blocks (component :: before) :=
  ⟨List.forall_mem_cons.2 ⟨precedes, reached.inner⟩, reached.openings, reached.outer⟩

theorem ordered_content {blocks : List OpenBlock} {before : List Component}
    (ordered : OrderedAll (OpenBlock.closeAll blocks before)) : OrderedAll before.reverse := by
  induction blocks generalizing before with
  | nil => exact ordered
  | cons block outer ih =>
      have closed := ih ordered
      rw [OpenBlock.close, List.reverse_cons] at closed
      exact (orderedAll_concat.1 closed).2.1

/-- The innermost open block may grow by what stands at the place that has been reached. -/
theorem orderedAll_closeAll {place : Nat} {blocks : List OpenBlock} {before grown : List Component}
    (ordered : OrderedAll (OpenBlock.closeAll blocks before)) (orderedGrown : OrderedAll grown.reverse)
    (outer : ∀ block ∈ blocks, ∀ component ∈ block.before, component.Precedes place)
    (grows : ∀ node ∈ nodesAll grown.reverse,
      node.offset = place ∨ ∃ other ∈ nodesAll before.reverse, other.offset = node.offset) :
    OrderedAll (OpenBlock.closeAll blocks grown) := by
  induction blocks generalizing before grown with
  | nil => exact orderedGrown
  | cons block more ih =>
      obtain ⟨first, others⟩ := List.forall_mem_cons.1 outer
      have closed : OrderedAll (block.close before).reverse :=
        ordered_content (show OrderedAll (OpenBlock.closeAll more (block.close before)) from ordered)
      rw [OpenBlock.close, List.reverse_cons, orderedAll_concat] at closed
      obtain ⟨orderedBefore, -, precedes⟩ := closed
      refine ih ordered ?_ others ?_
      · rw [OpenBlock.close, List.reverse_cons, orderedAll_concat]
        refine ⟨orderedBefore, orderedGrown, ?_⟩
        intro component member node isNode
        rcases List.mem_cons.1 isNode with rfl | inside
        · exact precedes component member (.block block.offset block.opening before.reverse)
            (mem_nodes_self _)
        · rcases grows node inside with here | ⟨other, isOther, same⟩
          · rw [here]
            exact first component (List.mem_reverse.1 member)
          · rw [← same]
            exact precedes component member other (List.mem_cons_of_mem _ isOther)
      · intro node isNode
        rw [OpenBlock.close, List.reverse_cons, nodesAll_append] at isNode
        rw [OpenBlock.close, List.reverse_cons, nodesAll_append]
        rcases List.mem_append.1 isNode with inBefore | inBlock
        · exact .inr ⟨node, List.mem_append_left _ inBefore, rfl⟩
        · rw [nodesAll, nodesAll, List.append_nil] at inBlock
          rw [nodesAll, nodesAll, List.append_nil]
          rcases List.mem_cons.1 inBlock with rfl | inside
          · exact .inr ⟨_, List.mem_append_right _ (mem_nodes_self _), rfl⟩
          · rcases grows node inside with here | ⟨other, isOther, same⟩
            · exact .inl here
            · exact .inr ⟨other, List.mem_append_right _ (List.mem_cons_of_mem _ isOther), same⟩

/-- A component that encloses nothing may be added at the place that has been reached. -/
theorem orderedAll_add {place : Nat} {blocks : List OpenBlock} {before : List Component}
    (ordered : OrderedAll (OpenBlock.closeAll blocks before)) (reached : ReadUpTo place blocks before)
    {component : Component} (alone : component.nodes = [component]) (isOrdered : component.Ordered)
    (here : component.offset = place) :
    OrderedAll (OpenBlock.closeAll blocks (component :: before)) := by
  refine orderedAll_closeAll ordered ?_ reached.outer ?_
  · rw [List.reverse_cons, orderedAll_concat]
    refine ⟨ordered_content ordered, isOrdered, ?_⟩
    intro other member node isNode
    rw [alone] at isNode
    rw [List.mem_singleton.1 isNode, here]
    exact reached.inner other (List.mem_reverse.1 member)
  · intro node isNode
    rw [List.reverse_cons, nodesAll_append, nodesAll, nodesAll, List.append_nil, alone] at isNode
    rcases List.mem_append.1 isNode with inBefore | isLast
    · exact .inr ⟨node, inBefore, rfl⟩
    · rw [List.mem_singleton.1 isLast]
      exact .inl here

/-- A lexeme comes before another one; a closer comes before all that follows it. -/
def ComesBefore (first second : Nat × Lexeme) : Prop :=
  first.1 ≤ second.1 ∧ ∀ closer, first.2 = .closer closer → first.1 < second.1

/-- Nesting keeps the order of the lexemes. -/
theorem orderedAll_nest (blocks : List OpenBlock) (before : List Component)
    (lexemes : List (Nat × Lexeme)) (inOrder : lexemes.Pairwise ComesBefore)
    (ordered : OrderedAll (OpenBlock.closeAll blocks before))
    (reached : ∀ read ∈ lexemes, ReadUpTo read.1 blocks before) :
    OrderedAll (nest blocks before lexemes) := by
  -- the invariant is told of the blocks as if all of them were closed here
  fun_induction nest blocks before lexemes with
  | case1 blocks before => exact ordered
  | case2 blocks before offset token rest ih =>
      obtain ⟨comesBefore, inOrder⟩ := List.pairwise_cons.1 inOrder
      obtain ⟨here, later⟩ := List.forall_mem_cons.1 reached
      refine ih inOrder (orderedAll_add ordered here rfl trivial rfl) ?_
      exact fun read member => (later read member).cons (comesBefore read member).1
  | case3 blocks before offset opening rest ih =>
      obtain ⟨comesBefore, inOrder⟩ := List.pairwise_cons.1 inOrder
      obtain ⟨here, later⟩ := List.forall_mem_cons.1 reached
      refine ih inOrder ?_ ?_
      · have alone : (Component.block offset opening []).nodes = [.block offset opening []] := rfl
        exact orderedAll_add ordered here alone trivial rfl
      · intro read member
        have after := later read member
        exact ⟨by simp, List.forall_mem_cons.2 ⟨(comesBefore read member).1, after.openings⟩,
          List.forall_mem_cons.2 ⟨after.inner, after.outer⟩⟩
  | case4 before offset rest block outer ih =>
      obtain ⟨comesBefore, inOrder⟩ := List.pairwise_cons.1 inOrder
      obtain ⟨here, later⟩ := List.forall_mem_cons.1 reached
      refine ih inOrder ordered ?_
      intro read member
      have after := later read member
      have passed : offset < read.1 := (comesBefore read member).2 _ rfl
      obtain ⟨isOpening, openings⟩ := List.forall_mem_cons.1 after.openings
      obtain ⟨besides, outerBlocks⟩ := List.forall_mem_cons.1 after.outer
      refine ⟨List.forall_mem_cons.2 ⟨?_, besides⟩, openings, outerBlocks⟩
      intro node isNode
      rcases List.mem_cons.1 isNode with rfl | inside
      · exact (here.openings block List.mem_cons_self).trans_lt passed
      · obtain ⟨component, inContent, isNode⟩ := mem_nodesAll.1 inside
        have upTo := here.inner component (List.mem_reverse.1 inContent)
        exact (upTo.nodes node isNode).trans_lt passed
  | case5 before offset closer rest block outer unfit ih =>
      obtain ⟨comesBefore, inOrder⟩ := List.pairwise_cons.1 inOrder
      obtain ⟨here, later⟩ := List.forall_mem_cons.1 reached
      refine ih inOrder (orderedAll_add ordered here rfl trivial rfl) ?_
      exact fun read member => (later read member).cons (comesBefore read member).1
  | case6 before offset closer rest ih =>
      obtain ⟨comesBefore, inOrder⟩ := List.pairwise_cons.1 inOrder
      obtain ⟨here, later⟩ := List.forall_mem_cons.1 reached
      refine ih inOrder (orderedAll_add ordered here rfl trivial rfl) ?_
      exact fun read member => (later read member).cons (comesBefore read member).1

/-- A block that is closed was read from lexemes like its content and what stands before it. -/
theorem nodes_close {lexemes : List (Nat × Lexeme)} {block : OpenBlock} {before : List Component}
    (isOpening : (block.offset, .opening block.opening) ∈ lexemes)
    (inner : ∀ node ∈ nodesAll before, (node.offset, node.lexeme) ∈ lexemes)
    (besides : ∀ node ∈ nodesAll block.before, (node.offset, node.lexeme) ∈ lexemes) :
    ∀ node ∈ nodesAll (.block block.offset block.opening before.reverse :: block.before),
      (node.offset, node.lexeme) ∈ lexemes := by
  intro node isNode
  rcases List.mem_append.1 isNode with inBlock | inBefore
  · rcases List.mem_cons.1 inBlock with rfl | inside
    · exact isOpening
    · exact inner node (mem_nodesAll_reverse.1 inside)
  · exact besides node inBefore

/-- Every component of some open blocks, at any depth, was read from one of the lexemes. -/
theorem nodes_closeAll {lexemes : List (Nat × Lexeme)} {blocks : List OpenBlock}
    {before : List Component}
    (inner : ∀ node ∈ nodesAll before, (node.offset, node.lexeme) ∈ lexemes)
    (outer : ∀ block ∈ blocks, (block.offset, .opening block.opening) ∈ lexemes ∧
      ∀ node ∈ nodesAll block.before, (node.offset, node.lexeme) ∈ lexemes) :
    ∀ node ∈ nodesAll (OpenBlock.closeAll blocks before),
      (node.offset, node.lexeme) ∈ lexemes := by
  induction blocks generalizing before with
  | nil => exact fun node isNode => inner node (mem_nodesAll_reverse.1 isNode)
  | cons block more ih =>
      obtain ⟨⟨isOpening, besides⟩, others⟩ := List.forall_mem_cons.1 outer
      exact ih (nodes_close isOpening inner besides) others

/-- Nesting makes every component, at any depth, from one of the lexemes. -/
theorem nodes_nest {lexemes : List (Nat × Lexeme)} (blocks : List OpenBlock)
    (before : List Component) (rest : List (Nat × Lexeme)) (among : rest ⊆ lexemes)
    (noStray : ∀ read ∈ lexemes, ∀ closer, read.2 ≠ .token (.fault (.strayCloser closer)))
    (inner : ∀ node ∈ nodesAll before, (node.offset, node.lexeme) ∈ lexemes)
    (outer : ∀ block ∈ blocks, (block.offset, .opening block.opening) ∈ lexemes ∧
      ∀ node ∈ nodesAll block.before, (node.offset, node.lexeme) ∈ lexemes) :
    ∀ node ∈ nodesAll (nest blocks before rest), (node.offset, node.lexeme) ∈ lexemes := by
  fun_induction nest blocks before rest with
  | case1 blocks before => exact nodes_closeAll inner outer
  | case2 blocks before offset value rest ih =>
      obtain ⟨isRead, others⟩ := List.cons_subset.1 among
      have same : (Component.token offset value).lexeme = .token value := by
        cases value with
        | fault cause =>
            cases cause with
            | strayCloser closer => exact absurd rfl (noStray _ isRead closer)
            | _ => rfl
        | _ => rfl
      refine ih others (List.forall_mem_cons.2 ⟨?_, inner⟩) outer
      rw [same]
      exact isRead
  | case3 blocks before offset opening rest ih =>
      obtain ⟨isRead, others⟩ := List.cons_subset.1 among
      refine ih others ?_ (List.forall_mem_cons.2 ⟨⟨isRead, inner⟩, outer⟩)
      exact fun node isNode => by cases isNode
  | case4 before offset rest block outer ih =>
      obtain ⟨⟨isOpening, besides⟩, outerBlocks⟩ := List.forall_mem_cons.1 outer
      exact ih (List.cons_subset.1 among).2 (nodes_close isOpening inner besides) outerBlocks
  | case5 before offset closer rest block outer unfit ih =>
      obtain ⟨isRead, others⟩ := List.cons_subset.1 among
      exact ih others (List.forall_mem_cons.2 ⟨isRead, inner⟩) outer
  | case6 before offset closer rest ih =>
      obtain ⟨isRead, others⟩ := List.cons_subset.1 among
      exact ih others (List.forall_mem_cons.2 ⟨isRead, inner⟩) outer

/-! ## Lexemes of a text -/

theorem le_of_mem_lexemesFrom {offset : Nat} {text : List Char} :
    ∀ read ∈ lexemesFrom offset text, offset ≤ read.1 := by
  fun_induction lexemesFrom offset text with
  | case1 => exact fun read member => by cases member
  | case2 offset c rest step ih =>
      intro read member
      rcases List.mem_append.1 member with inStep | inRest
      · obtain ⟨lexeme, -, rfl⟩ := List.mem_map.1 inStep
        exact le_rfl
      · exact (Nat.le_add_right _ _).trans (ih read inRest)

/-- A step of the scanner reads some lexeme. -/
theorem scan_filled (c : Char) (rest : List Char) : (scan c rest).1 ≠ [] := by
  cases isBlank : isSpace c with
  | true =>
      rw [scan_blank isBlank]
      exact List.cons_ne_nil _ _
  | false =>
      by_cases isComment : c = '/' ∧ rest.head? = some '*'
      · obtain ⟨rfl, isStar⟩ := isComment
        obtain ⟨inner, rfl⟩ := List.head?_eq_some_iff.1 isStar
        rw [scan_comment]
        exact List.cons_ne_nil _ _
      · have spells := scan_spells isBlank fun isSlash isStar => isComment ⟨isSlash, isStar⟩
        generalize scan c rest = step at spells ⊢
        cases spells with
        | faulty member => exact List.ne_nil_of_mem member
        | read => exact List.cons_ne_nil _ _

/-- The first lexeme of a text is read by its first step. -/
theorem lexemesFrom_first {offset : Nat} {text : List Char} {read : Nat × Lexeme}
    {more : List (Nat × Lexeme)} (lexemes : lexemesFrom offset text = read :: more) :
    ∃ c rest, text = c :: rest ∧ read.1 = offset ∧ read.2 ∈ (scan c rest).1 := by
  cases text with
  | nil =>
      rw [lexemesFrom_nil] at lexemes
      cases lexemes
  | cons c rest =>
      obtain ⟨first, others, step⟩ := List.exists_cons_of_ne_nil (scan_filled c rest)
      rw [lexemesFrom_cons, step, List.map_cons, List.cons_append] at lexemes
      cases lexemes
      exact ⟨c, rest, rfl, rfl, step ▸ List.mem_cons_self⟩

/-- The lexemes of one step of the scanner have one offset; a closer is alone in its step. -/
theorem pairwise_step {c : Char} {rest : List Char} (clean : Clean (c :: rest)) (offset : Nat) :
    ((scan c rest).1.map (offset, ·)).Pairwise ComesBefore := by
  by_cases closes : ∃ closer, .closer closer ∈ (scan c rest).1
  · obtain ⟨closer, isRead⟩ := closes
    have sound := scan_sound clean _ isRead
    obtain ⟨rfl, -⟩ := scan_of_closer isRead
    rw [scan_closer sound]
    exact List.pairwise_singleton _ _
  · refine List.pairwise_map.2 (List.pairwise_of_forall_mem_list ?_)
    intro first isRead second _
    refine ⟨le_rfl, ?_⟩
    rintro closer rfl
    exact absurd ⟨closer, isRead⟩ closes

/-- The lexemes of a text stand in its order. -/
theorem pairwise_lexemesFrom {text : List Char} (clean : Clean text) (offset : Nat) :
    (lexemesFrom offset text).Pairwise ComesBefore := by
  fun_induction lexemesFrom offset text with
  | case1 => exact .nil
  | case2 offset c rest step ih =>
      have shorter : step.2.length < (c :: rest).length :=
        Nat.lt_succ_of_le (scan_suffix c rest).length_le
      refine List.pairwise_append.2
        ⟨pairwise_step clean offset, ih (clean.tail.suffix (scan_suffix c rest)), ?_⟩
      intro first inStep second inRest
      obtain ⟨lexeme, -, rfl⟩ := List.mem_map.1 inStep
      have later := le_of_mem_lexemesFrom second inRest
      have further : offset < second.1 := by omega
      exact ⟨further.le, fun _ _ => further⟩

/-- The step of the scanner that reads a lexeme of a text, and what is read after the lexeme. -/
theorem exists_step {start : Nat} {text : List Char} {read : Nat × Lexeme}
    {front more : List (Nat × Lexeme)} (lexemes : lexemesFrom start text = front ++ read :: more) :
    ∃ before c rest left right skipped, text = before ++ c :: rest ∧
      read.1 = start + before.length ∧ (scan c rest).1 = left ++ read.2 :: right ∧
        c :: rest = skipped ++ (scan c rest).2 ∧
          more = right.map (read.1, ·) ++ lexemesFrom (read.1 + skipped.length) (scan c rest).2 := by
  induction length : text.length using Nat.strongRecOn generalizing start text front with
  | ind n ih =>
      subst length
      cases text with
      | nil =>
          rw [lexemesFrom_nil] at lexemes
          exact absurd lexemes.symm (by simp)
      | cons c rest =>
          obtain ⟨skipped, whole, shorter, first⟩ := lexemesFrom_step start c rest
          rw [first] at lexemes
          have parts : (∃ between, lexemesFrom (start + skipped.length) (scan c rest).2 =
                between ++ read :: more) ∨
              ∃ others, (scan c rest).1.map (start, ·) = front ++ read :: others ∧
                more = others ++ lexemesFrom (start + skipped.length) (scan c rest).2 := by
            rcases List.append_eq_append_iff.1 lexemes with
              ⟨between, _, later⟩ | ⟨reads, here, later⟩
            · exact .inl ⟨between, later⟩
            · cases reads with
              | nil => exact .inl ⟨[], later.symm⟩
              | cons first others =>
                  obtain ⟨rfl, rfl⟩ := List.cons.inj later
                  exact .inr ⟨others, here, rfl⟩
          rcases parts with ⟨between, later⟩ | ⟨others, here, rfl⟩
          · obtain ⟨before, d, others, left, right, skipped', split, offset, step⟩ :=
              ih _ shorter later rfl
            refine ⟨skipped ++ before, d, others, left, right, skipped', ?_, ?_, step⟩
            · rw [whole, split, List.append_assoc]
            · rw [offset, List.length_append, Nat.add_assoc]
          · obtain ⟨left, last, step, _, isLast⟩ := List.map_eq_append_iff.1 here
            obtain ⟨lexeme, right, rfl, rfl, rfl⟩ := List.map_eq_cons_iff.1 isLast
            exact ⟨[], c, rest, left, right, skipped, rfl, rfl, step, whole, rfl⟩

/-- A lexeme is read where as many characters have been read as its offset says. -/
theorem exists_scan_of_mem_lexemesFrom {start : Nat} {text : List Char} {read : Nat × Lexeme}
    (member : read ∈ lexemesFrom start text) :
    ∃ before c rest, text = before ++ c :: rest ∧ read.1 = start + before.length ∧
      read.2 ∈ (scan c rest).1 := by
  obtain ⟨front, more, lexemes⟩ := List.append_of_mem member
  obtain ⟨before, c, rest, left, right, _, split, offset, step, _⟩ := exists_step lexemes
  refine ⟨before, c, rest, split, offset, ?_⟩
  rw [step]
  exact List.mem_append_right left List.mem_cons_self

/-! ## Components of a text -/

/-- A component was read in a text after `before`. -/
structure Component.ReadAfter (text before : List Char) (component : Component) : Prop where
  offset : component.offset = before.length
  scanned : (before.length, component.lexeme) ∈ lexemesFrom 0 text
  here : ∃ c rest, text = before ++ c :: rest ∧ component.lexeme ∈ (scan c rest).1

/-- Every component of a text, at any depth, was read where its offset says. -/
theorem exists_readAfter {text : List Char} {node : Component}
    (isNode : node ∈ nodesAll (significantComponents text)) :
    ∃ before, node.ReadAfter (normalizeNewlines text) before := by
  have noStray : ∀ read ∈ lexemesFrom 0 (normalizeNewlines text), ∀ closer,
      read.2 ≠ .token (.fault (.strayCloser closer)) := by
    intro read member closer same
    have sound := lexemesFrom_sound (clean_normalizeNewlines text) 0 read member
    rw [same] at sound
    exact sound
  have isRead := nodes_nest [] [] _ List.filter_sublist.subset noStray
    (fun node isNode => by cases isNode) (fun block member => by cases member) node isNode
  obtain ⟨before, c, rest, split, offset, here⟩ := exists_scan_of_mem_lexemesFrom isRead
  have offset : node.offset = before.length := offset.trans (Nat.zero_add _)
  exact ⟨before, offset, offset ▸ isRead, c, rest, split, here⟩

/-- The components of a text stand in their tree as they stand in the text. -/
theorem ordered_significantComponents (text : List Char) :
    OrderedAll (significantComponents text) := by
  refine orderedAll_nest [] [] _ ?_ trivial ?_
  · exact (pairwise_lexemesFrom (clean_normalizeNewlines text) 0).filter _
  · intro read member
    exact ⟨by simp, by simp, by simp⟩

end StyleSieve.Css
