import Mathlib.Data.List.TakeWhile
import StyleSieve.Location.Path
import StyleSieve.Proofs.Text.Splitting

/-!
# Component stacks

The components of a path are followed one after the other on a stack of names.  A stack holds
nothing that could be left out: no empty names, no dots for the present directory, and dots for
the parent directory only below everything else and only without a root.  What it is written as is
the normal form of the path.
-/

namespace StyleSieve.Location

open Text

/-! ## Roots -/

/-- How a path is rooted. -/
inductive PathRoot where
  | absent
  | single
  | double
  deriving DecidableEq, Repr

namespace PathRoot

/-- The text of a root. -/
def text : PathRoot → List Char
  | absent => []
  | single => ['/']
  | double => ['/', '/']

/-- The root of a path, by the slashes that it starts with: two are a root of their own, and any
other number counts as one. -/
def ofPath (path : List Char) : PathRoot :=
  match (path.takeWhile (· = '/')).length with
  | 0 => absent
  | 2 => double
  | _ => single

theorem text_ofPath (path : List Char) : (ofPath path).text = pathRoot path := by
  unfold pathRoot
  split
  · simp [ofPath, text]
  · rename_i rest other
    cases rest with
    | nil => simp [ofPath, text]
    | cons c rest =>
        have plain : c ≠ '/' := fun same => other rest (same ▸ rfl)
        simp [ofPath, text, plain]
  · rename_i rest _ other
    cases rest with
    | nil => simp [ofPath, text]
    | cons c rest =>
        have plain : c ≠ '/' := fun same => other rest (same ▸ rfl)
        simp [ofPath, text, plain]
  · rename_i _ _ other
    cases path with
    | nil => simp [ofPath, text]
    | cons c rest =>
        have plain : c ≠ '/' := fun same => other rest (same ▸ rfl)
        simp [ofPath, text, plain]

theorem text_eq_nil_iff {root : PathRoot} : root.text = [] ↔ root = absent := by
  cases root <;> simp [text]

/-- A text that does not start with a slash does not change the root before it. -/
theorem ofPath_text_append (root : PathRoot) {rest : List Char}
    (relative : rest.head? ≠ some '/') : ofPath (root.text ++ rest) = root := by
  cases rest with
  | nil => cases root <;> rfl
  | cons c rest =>
      have plain : c ≠ '/' := fun same => relative (congrArg some same)
      cases root <;> simp [ofPath, text, plain]

end PathRoot

/-! ## Stacks -/

/-- Whether a component leads down: it is neither empty nor a dot nor the name of a parent
directory. -/
def IsName (component : List Char) : Prop :=
  component ≠ [] ∧ component ≠ ['.'] ∧ component ≠ parentName ∧ '/' ∉ component

instance (component : List Char) : Decidable (IsName component) :=
  inferInstanceAs (Decidable (_ ∧ _))

/-- Where the components of a path lead: from its root or from the present directory, up some
parent directories, and down some names, the last one first.  From a root nothing leads up. -/
@[ext]
structure PathStack where
  root : PathRoot
  climbs : Nat
  names : List (List Char)
  climbs_eq_zero : root ≠ .absent → climbs = 0
  areNames : ∀ name ∈ names, IsName name
  deriving Repr

namespace PathStack

/-- The stack of a root. -/
def start (root : PathRoot) : PathStack :=
  ⟨root, 0, [], fun _ => rfl, fun _ member => absurd member List.not_mem_nil⟩

/-- The stack that the parent directory leads to: the last name goes, or else another parent
directory is climbed to unless a root is there. -/
def up : PathStack → PathStack
  | ⟨root, climbs, _ :: below, grounded, areNames⟩ =>
      ⟨root, climbs, below, grounded, fun name member => areNames name (List.mem_cons_of_mem _ member)⟩
  | ⟨.absent, climbs, [], _, areNames⟩ => ⟨.absent, climbs + 1, [], (absurd rfl ·), areNames⟩
  | stack => stack

/-- The stack that a name leads to. -/
def down (stack : PathStack) (name : List Char) (isName : IsName name) : PathStack :=
  { stack with
    names := name :: stack.names
    areNames := List.forall_mem_cons.2 ⟨isName, stack.areNames⟩ }

/-- The stack that a component leads to; an empty one and a dot lead nowhere. -/
def follow (stack : PathStack) (component : List Char) : PathStack :=
  if component = parentName then stack.up
  else if isName : IsName component then stack.down component isName
  else stack

/-- The stack that some components lead to. -/
def followAll (stack : PathStack) (components : List (List Char)) : PathStack :=
  components.foldl follow stack

/-- The components of a stack, the first one first. -/
def components (stack : PathStack) : List (List Char) :=
  List.replicate stack.climbs parentName ++ stack.names.reverse

/-- The text of a stack; a dot if there is nothing to write. -/
def render (stack : PathStack) : List Char :=
  if stack.root = .absent ∧ stack.components = [] then ['.']
  else stack.root.text ++ joinWith '/' stack.components

/-- The stack that a path leads to. -/
def ofPath (path : List Char) : PathStack :=
  (start (PathRoot.ofPath path)).followAll (splitAtChar '/' path)

@[simp] theorem followAll_nil (stack : PathStack) : stack.followAll [] = stack := rfl

@[simp] theorem followAll_cons (stack : PathStack) (component : List Char)
    (rest : List (List Char)) :
    stack.followAll (component :: rest) = (stack.follow component).followAll rest := rfl

theorem followAll_append (stack : PathStack) (front back : List (List Char)) :
    stack.followAll (front ++ back) = (stack.followAll front).followAll back :=
  List.foldl_append

@[simp] theorem follow_nil (stack : PathStack) : stack.follow [] = stack := by
  simp [follow, IsName, parentName]

@[simp] theorem follow_dot (stack : PathStack) : stack.follow ['.'] = stack := by
  simp [follow, IsName, parentName]

@[simp] theorem follow_parent (stack : PathStack) : stack.follow parentName = stack.up :=
  if_pos rfl

theorem follow_name (stack : PathStack) {name : List Char} (isName : IsName name) :
    stack.follow name = stack.down name isName := by
  rw [follow, if_neg isName.2.2.1, dif_pos isName]

@[simp] theorem root_up (stack : PathStack) : stack.up.root = stack.root := by
  unfold up
  split <;> rfl

@[simp] theorem root_follow (stack : PathStack) (component : List Char) :
    (stack.follow component).root = stack.root := by
  unfold follow
  split
  · exact root_up stack
  · split <;> rfl

@[simp] theorem root_followAll (stack : PathStack) (components : List (List Char)) :
    (stack.followAll components).root = stack.root := by
  induction components generalizing stack with
  | nil => rfl
  | cons component rest ih => rw [followAll_cons, ih, root_follow]

theorem text_root_ofPath (path : List Char) : (ofPath path).root.text = pathRoot path := by
  rw [ofPath, root_followAll, start, PathRoot.text_ofPath]

/-! ## Normal forms -/

/-- What is on a stack, the last component first. -/
def entries (stack : PathStack) : List (List Char) :=
  stack.names ++ List.replicate stack.climbs parentName

theorem reverse_entries (stack : PathStack) : stack.entries.reverse = stack.components := by
  rw [entries, components, List.reverse_append, List.reverse_replicate]

/-- A step on the stack is a step among the names of a normal path. -/
theorem entries_follow (stack : PathStack) {component : List Char} (plain : '/' ∉ component) :
    (stack.follow component).entries =
      Location.follow (stack.root.text ≠ []) stack.entries component := by
  by_cases still : component = [] ∨ component = ['.']
  · rw [Location.follow.eq_def, if_pos still]
    rcases still with rfl | rfl
    · rw [follow_nil]
    · rw [follow_dot]
  rw [Location.follow.eq_def, if_neg still]
  by_cases parent : component = parentName
  · rw [if_pos parent, parent, follow_parent]
    -- a parent takes the last name away, and climbs only where there is no root
    obtain ⟨root, climbs, names, grounded, areNames⟩ := stack
    cases names with
    | cons name below =>
        have proper : name ≠ parentName := (areNames name List.mem_cons_self).2.2.1
        simp [entries, up, proper]
    | nil =>
        cases root with
        | absent => cases climbs <;> simp [entries, up, PathRoot.text, List.replicate_succ]
        | single | double =>
            have bottom : climbs = 0 := grounded (by simp)
            simp [entries, up, PathRoot.text, bottom]
  · have isName : IsName component :=
      ⟨fun same => still (.inl same), fun same => still (.inr same), parent, plain⟩
    rw [if_neg parent, follow_name stack isName]
    rfl

theorem entries_followAll (stack : PathStack) {components : List (List Char)}
    (plain : ∀ component ∈ components, '/' ∉ component) :
    (stack.followAll components).entries =
      components.foldl (Location.follow (stack.root.text ≠ [])) stack.entries := by
  induction components generalizing stack with
  | nil => rfl
  | cons component rest ih =>
      rw [List.forall_mem_cons] at plain
      rw [followAll_cons, ih _ plain.2, root_follow, entries_follow stack plain.1, List.foldl_cons]

theorem normalNames_eq_components (path : List Char) :
    normalNames path = (ofPath path).components := by
  rw [← reverse_entries, ofPath,
    entries_followAll _ fun _ isPiece => not_mem_of_mem_splitAtChar isPiece, normalNames,
    ← PathRoot.text_ofPath]
  rfl

theorem components_ne_nil (stack : PathStack) : ∀ component ∈ stack.components, component ≠ [] := by
  intro component member
  rcases List.mem_append.1 member with climbed | named
  · rw [List.eq_of_mem_replicate climbed]
    decide
  · exact (stack.areNames component (List.mem_reverse.1 named)).1

theorem slash_not_mem (stack : PathStack) : ∀ component ∈ stack.components, '/' ∉ component := by
  intro component member
  rcases List.mem_append.1 member with climbed | named
  · rw [List.eq_of_mem_replicate climbed]
    decide
  · exact (stack.areNames component (List.mem_reverse.1 named)).2.2.2

theorem head?_joinWith_components (stack : PathStack) :
    (joinWith '/' stack.components).head? ≠ some '/' := by
  intro starts
  cases written : stack.components with
  | nil =>
      rw [written] at starts
      cases starts
  | cons component rest =>
      have member : component ∈ stack.components := written ▸ List.mem_cons_self
      rw [written, head?_joinWith (stack.components_ne_nil component member)] at starts
      exact stack.slash_not_mem component member (List.mem_of_mem_head? starts)

/-- What is followed is on the stack or was there before. -/
theorem mem_names_followAll {stack : PathStack} {components : List (List Char)} {name : List Char}
    (member : name ∈ (stack.followAll components).names) :
    name ∈ stack.names ∨ name ∈ components := by
  induction components generalizing stack with
  | nil => exact .inl member
  | cons component rest ih =>
      rcases ih member with before | later
      · by_cases parent : component = parentName
        · rw [parent, follow_parent] at before
          obtain ⟨root, climbs, names, _, _⟩ := stack
          cases names with
          | cons top below => exact .inl (List.mem_cons_of_mem _ before)
          | nil => cases root <;> cases before
        · rw [follow, if_neg parent] at before
          split at before
          · rcases List.mem_cons.1 before with same | old
            · exact .inr (same ▸ List.mem_cons_self)
            · exact .inl old
          · exact .inl before
      · exact .inr (List.mem_cons_of_mem _ later)

theorem not_mem_text {path : List Char} {c : Char} (absent : c ∉ path) (noDot : c ≠ '.')
    (noSlash : c ≠ '/') : c ∉ (ofPath path).root.text ++ joinWith '/' (ofPath path).components := by
  rw [List.mem_append, not_or]
  constructor
  · cases (ofPath path).root <;> simp [PathRoot.text, noSlash]
  · intro member
    rcases mem_joinWith member with same | ⟨component, isComponent, inside⟩
    · exact noSlash same
    · rcases List.mem_append.1 isComponent with climbed | named
      · rw [List.eq_of_mem_replicate climbed] at inside
        simp [parentName, noDot] at inside
      · rcases mem_names_followAll (List.mem_reverse.1 named) with before | isPiece
        · exact absurd before List.not_mem_nil
        · exact absent (mem_of_mem_splitAtChar isPiece inside)

theorem not_mem_render {path : List Char} {c : Char} (absent : c ∉ path) (noDot : c ≠ '.')
    (noSlash : c ≠ '/') : c ∉ (ofPath path).render := by
  rw [render]
  split
  · exact fun member => noDot (List.mem_singleton.1 member)
  · exact not_mem_text absent noDot noSlash

/-- The normal form of a path is written from the stack that its components lead to. -/
theorem normalPath_eq_render {path : List Char} (clean : '\x00' ∉ path) :
    normalPath path = (ofPath path).render := by
  have plain := not_mem_text clean (by decide) (by decide)
  rw [normalPath, normalNames_eq_components, ← text_root_ofPath, render]
  have whole : ((ofPath path).root.text ++ joinWith '/' (ofPath path).components).takeWhile
      (· ≠ '\x00') = (ofPath path).root.text ++ joinWith '/' (ofPath path).components := by
    rw [List.takeWhile_eq_self_iff]
    exact fun c member => decide_eq_true fun same => plain (same ▸ member)
  rw [whole]
  split
  · rename_i empty
    rw [List.append_eq_nil_iff, PathRoot.text_eq_nil_iff,
      joinWith_eq_nil_iff (components_ne_nil _)] at empty
    rw [if_pos empty]
  · rename_i c rest filled
    rw [if_neg, filled]
    rintro ⟨noRoot, nothing⟩
    rw [noRoot, nothing] at filled
    cases filled

/-! ## Reading back -/

theorem followAll_parents (climbs : Nat) :
    (start .absent).followAll (List.replicate climbs parentName) =
      ⟨.absent, climbs, [], (absurd rfl ·), (start .absent).areNames⟩ := by
  induction climbs with
  | zero => rfl
  | succ climbs ih =>
      rw [List.replicate_succ', followAll_append, ih, followAll_cons, followAll_nil, follow_parent]
      rfl

theorem followAll_names (stack : PathStack) {names : List (List Char)}
    (areNames : ∀ name ∈ names, IsName name) :
    (stack.followAll names).climbs = stack.climbs ∧
      (stack.followAll names).names = names.reverse ++ stack.names := by
  induction names generalizing stack with
  | nil => exact ⟨rfl, rfl⟩
  | cons name rest ih =>
      rw [List.forall_mem_cons] at areNames
      obtain ⟨climbs, names⟩ := ih (stack.follow name) areNames.2
      rw [followAll_cons, climbs, names, follow_name stack areNames.1]
      exact ⟨rfl, by rw [down, List.reverse_cons, List.append_assoc, List.singleton_append]⟩

/-- The components of a stack lead to the stack. -/
theorem followAll_components (stack : PathStack) :
    (start stack.root).followAll stack.components = stack := by
  have areNames : ∀ name ∈ stack.names.reverse, IsName name := fun name member =>
    stack.areNames name (List.mem_reverse.1 member)
  obtain ⟨climbs, names⟩ := followAll_names
    ((start stack.root).followAll (List.replicate stack.climbs parentName)) areNames
  -- parents climb only without a root, and under a root there are none of them
  have climbed : ((start stack.root).followAll (List.replicate stack.climbs parentName)).climbs =
      stack.climbs ∧
        ((start stack.root).followAll (List.replicate stack.climbs parentName)).names = [] := by
    cases root : stack.root with
    | absent =>
        rw [followAll_parents]
        exact ⟨rfl, rfl⟩
    | single | double =>
        rw [stack.climbs_eq_zero (by rw [root]; decide)]
        exact ⟨rfl, rfl⟩
  rw [components, followAll_append]
  refine PathStack.ext ?_ ?_ ?_
  · rw [root_followAll, root_followAll]
    rfl
  · rw [climbs, climbed.1]
  · rw [names, climbed.2, List.reverse_reverse, List.append_nil]

/-- The pieces of the text of a stack are its components, after an empty piece for each slash of
its root. -/
theorem splitAtChar_text (stack : PathStack) (filled : stack.components ≠ []) :
    splitAtChar '/' (stack.root.text ++ joinWith '/' stack.components) =
      List.replicate stack.root.text.length [] ++ stack.components := by
  have plain := splitAtChar_joinWith filled stack.slash_not_mem
  have rooted (rest : List Char) : splitAtChar '/' ('/' :: rest) = [] :: splitAtChar '/' rest :=
    splitAtChar_append [] rest
  cases stack.root with
  | absent => exact plain
  | single =>
      change splitAtChar '/' ('/' :: joinWith '/' stack.components) = [] :: stack.components
      rw [rooted, plain]
  | double =>
      change splitAtChar '/' ('/' :: '/' :: joinWith '/' stack.components) =
        [] :: [] :: stack.components
      rw [rooted, rooted, plain]

theorem followAll_replicate_nil (stack : PathStack) (count : Nat) :
    stack.followAll (List.replicate count []) = stack := by
  induction count with
  | zero => rfl
  | succ count ih => rw [List.replicate_succ, followAll_cons, follow_nil, ih]

/-- A stack is found again in its text. -/
theorem ofPath_render (stack : PathStack) : ofPath stack.render = stack := by
  by_cases filled : stack.components = []
  · have empty := stack.followAll_components
    rw [filled, followAll_nil] at empty
    rw [← empty]
    cases stack.root <;> rfl
  · rw [render, if_neg fun nothing => filled nothing.2, ofPath,
      PathRoot.ofPath_text_append _ stack.head?_joinWith_components, splitAtChar_text stack filled,
      followAll_append, followAll_replicate_nil, followAll_components]

/-- Writing a stack whose names are clean leaves nothing to normalize. -/
theorem normalPath_render {path : List Char} (clean : '\x00' ∉ path) :
    normalPath (ofPath path).render = (ofPath path).render := by
  rw [normalPath_eq_render (not_mem_render clean (by decide) (by decide)), ofPath_render]

end PathStack

/-! ## Canonical paths -/

/-- The components that a path is written with after its root. -/
def writtenComponents (path : List Char) : List (List Char) :=
  let rest := path.drop (PathRoot.ofPath path).text.length
  if rest = [] then [] else splitAtChar '/' rest

/-- Whether nothing can be left out of a path: unless it is a dot alone, it is written without
empty components and dots, and with parent directories only at its start and without a root. -/
def IsCanonical (path : List Char) : Prop :=
  path = ['.'] ∨
    (∀ component ∈ writtenComponents path, component ≠ [] ∧ component ≠ ['.']) ∧
      ∃ climbs rest, writtenComponents path = List.replicate climbs parentName ++ rest ∧
        parentName ∉ rest ∧ (PathRoot.ofPath path ≠ .absent → climbs = 0)

namespace PathStack

theorem writtenComponents_text (stack : PathStack) :
    writtenComponents (stack.root.text ++ joinWith '/' stack.components) = stack.components := by
  rw [writtenComponents, PathRoot.ofPath_text_append _ stack.head?_joinWith_components,
    List.drop_left]
  by_cases filled : stack.components = []
  · rw [filled]
    rfl
  · have written : joinWith '/' stack.components ≠ [] := fun empty =>
      filled ((joinWith_eq_nil_iff stack.components_ne_nil).1 empty)
    rw [if_neg written, splitAtChar_joinWith filled stack.slash_not_mem]

theorem isCanonical_render (stack : PathStack) : IsCanonical stack.render := by
  rw [render]
  split
  · exact .inl rfl
  refine .inr ⟨?_, stack.climbs, stack.names.reverse, stack.writtenComponents_text, ?_, ?_⟩
  · rw [writtenComponents_text]
    intro component member
    refine ⟨stack.components_ne_nil component member, ?_⟩
    rcases List.mem_append.1 member with climbed | named
    · rw [List.eq_of_mem_replicate climbed]
      decide
    · exact (stack.areNames component (List.mem_reverse.1 named)).2.1
  · intro member
    exact (stack.areNames _ (List.mem_reverse.1 member)).2.2.1 rfl
  · rw [PathRoot.ofPath_text_append _ stack.head?_joinWith_components]
    exact stack.climbs_eq_zero

end PathStack

end StyleSieve.Location
