import StyleSieve.Proofs.Css.Offsets
import StyleSieve.Proofs.Sheet.Listing
import StyleSieve.Proofs.Sheet.Partition

/-!
# Unfinished rules

A sheet cannot be read just if its outermost rule list, or that of a media rule whose media rules
around it are all read, ends in a style rule without a block.  The error stands in the first such
rule of the source.  The blocks of style rules and of other at-rules play no part in this.
-/

namespace StyleSieve

open Css Css.Component

/-! ## Statements of a rule list -/

/-- Whether a component ends the statement that `first` starts: a block in curly brackets does,
and a semicolon does after an at-keyword. -/
def endsAfter (first next : Component) : Bool :=
  next.curlyContent?.isSome || (first.atKeyword?.isSome && next.isDelim ";")

/-- Components that start a statement and do not end it. -/
structure Level.Begins (level : Level) (first : Component) (more : List Component) : Prop where
  counts : level.skips first = false
  flat : first.curlyContent? = none
  goesOn : ∀ next ∈ more, endsAfter first next = false

/-- A whole statement, or a component that is passed over between two statements. -/
inductive Level.IsPart (level : Level) : List Component → Prop where
  | skipped {gap : Component} : level.skips gap = true → IsPart level [gap]
  | block {block : Component} : block.curlyContent?.isSome = true → IsPart level [block]
  | ended {first last : Component} {more : List Component} :
      level.Begins first more → endsAfter first last = true →
      IsPart level (first :: (more ++ [last]))

/-- Whole statements in a row, and what is passed over between them. -/
inductive Level.AreParts (level : Level) : List Component → Prop where
  | nil : AreParts level []
  | cons {part rest : List Component} :
      level.IsPart part → AreParts level rest → AreParts level (part ++ rest)

/-- A media rule with the content of its block. -/
inductive Level.IsMedia (level : Level) : List Component → List Component → Prop where
  | intro {first block : Component} {more content : List Component} :
      level.Begins first more → first.atKeyword?.map lowerAscii = some "media".toList →
      block.curlyContent? = some content → IsMedia level (first :: (more ++ [block])) content

/-- A style rule without a block at the end of a rule list, or at the end of the list in one of
its media rules, to any depth. -/
inductive Unfinished : Level → List Component → List Component → Prop where
  | last {level : Level} {before more : List Component} {first : Component} :
      level.AreParts before → level.Begins first more → first.atKeyword? = none →
      Unfinished level (before ++ first :: more) (first :: more)
  | inMedia {level : Level} {before media content after rule : List Component} :
      level.AreParts before → level.IsMedia media content → Unfinished .inBlock content rule →
      Unfinished level (before ++ (media ++ after)) rule

/-- The unfinished rule that stands before all others. -/
structure FirstUnfinished (level : Level) (components rule : List Component) : Prop where
  unfinished : Unfinished level components rule
  first : ∀ other, Unfinished level components other →
    other = rule ∨ ∀ here ∈ rule, ∀ there ∈ other, here.offset < there.offset

/-! ## One way to part a rule list -/

theorem Level.IsMedia.isPart {level : Level} {media content : List Component}
    (isMedia : level.IsMedia media content) : level.IsPart media := by
  obtain ⟨begins, -, isBlock⟩ := isMedia
  refine .ended begins ?_
  rw [endsAfter, isBlock]
  rfl

theorem Level.IsMedia.content_unique {level : Level} {media content other : List Component}
    (isMedia : level.IsMedia media content) (isOther : level.IsMedia media other) :
    content = other := by
  obtain ⟨-, -, isBlock⟩ := isMedia
  generalize same : _ :: (_ ++ [_]) = media at isOther
  obtain ⟨-, -, isBlockOther⟩ := isOther
  obtain ⟨-, same⟩ := List.cons.inj same
  obtain ⟨-, same⟩ := List.append_inj' same rfl
  obtain rfl := List.singleton_inj.1 same
  exact Option.some.inj (isBlock.symm.trans isBlockOther)

/-- No part of a rule list starts another one. -/
theorem Level.IsPart.eq_of_prefix {level : Level} {part other : List Component}
    (isPart : level.IsPart part) (isOther : level.IsPart other) (starts : part <+: other) :
    part = other := by
  cases isPart with
  | @skipped gap skips =>
      cases isOther with
      | skipped => exact starts.eq_of_length rfl
      | block => exact starts.eq_of_length rfl
      | ended begins =>
          obtain ⟨rfl, -⟩ := List.cons_prefix_cons.1 starts
          rw [begins.counts] at skips
          cases skips
  | @block block isBlock =>
      cases isOther with
      | skipped => exact starts.eq_of_length rfl
      | block => exact starts.eq_of_length rfl
      | ended begins =>
          obtain ⟨rfl, -⟩ := List.cons_prefix_cons.1 starts
          rw [begins.flat] at isBlock
          cases isBlock
  | @ended first last more begins ends =>
      cases isOther with
      | skipped => simpa using starts.length_le
      | block => simpa using starts.length_le
      | @ended otherFirst otherLast otherMore otherBegins =>
          obtain ⟨rfl, startsMore⟩ := List.cons_prefix_cons.1 starts
          rcases List.prefix_concat_iff.1 startsMore with same | inside
          · rw [same]
          · rw [otherBegins.goesOn last (inside.subset (by simp))] at ends
            cases ends

/-- No part of a rule list starts an unfinished statement. -/
theorem Level.Begins.not_prefix {level : Level} {part more : List Component} {first : Component}
    (begins : level.Begins first more) (isPart : level.IsPart part) : ¬part <+: first :: more := by
  intro starts
  cases isPart with
  | skipped skips =>
      obtain ⟨rfl, -⟩ := List.cons_prefix_cons.1 starts
      rw [begins.counts] at skips
      cases skips
  | block isBlock =>
      obtain ⟨rfl, -⟩ := List.cons_prefix_cons.1 starts
      rw [begins.flat] at isBlock
      cases isBlock
  | @ended _ last _ _ ends =>
      obtain ⟨rfl, inside⟩ := List.cons_prefix_cons.1 starts
      rw [begins.goesOn last (inside.subset (by simp))] at ends
      cases ends

theorem Level.IsPart.eq_of_append {level : Level} {part other rest otherRest : List Component}
    (isPart : level.IsPart part) (isOther : level.IsPart other)
    (same : part ++ rest = other ++ otherRest) : part = other ∧ rest = otherRest := by
  have here : part = other := by
    rcases List.prefix_or_prefix_of_prefix ⟨rest, rfl⟩ ⟨otherRest, same.symm⟩ with starts | starts
    · exact isPart.eq_of_prefix isOther starts
    · exact (isOther.eq_of_prefix isPart starts).symm
  subst here
  exact ⟨rfl, List.append_cancel_left same⟩

/-- A rule list starts with a part, unless it is one statement that does not end. -/
theorem Level.begins_or_exists_part (level : Level) (first : Component) (more : List Component) :
    level.Begins first more ∨
      ∃ part rest, level.IsPart part ∧ first :: more = part ++ rest := by
  cases skips : level.skips first with
  | true => exact .inr ⟨[first], more, .skipped skips, rfl⟩
  | false =>
      cases curly : first.curlyContent? with
      | some content => exact .inr ⟨[first], more, .block (by rw [curly]; rfl), rfl⟩
      | none =>
          cases found : more.find? (endsAfter first) with
          | none =>
              refine .inl ⟨skips, curly, ?_⟩
              intro next member
              exact eq_false_of_ne_true (List.find?_eq_none.1 found next member)
          | some last =>
              obtain ⟨ends, front, rest, rfl, goesOn⟩ := List.find?_eq_some_iff_append.1 found
              refine .inr ⟨first :: (front ++ [last]), rest, .ended ⟨skips, curly, ?_⟩ ends, ?_⟩
              · intro next member
                simpa using goesOn next member
              · simp

/-! ## Unfinished rules of a part and of the rest -/

theorem Unfinished.of_part {level : Level} {part rest rule : List Component}
    (isPart : level.IsPart part) (unfinished : Unfinished level rest rule) :
    Unfinished level (part ++ rest) rule := by
  cases unfinished with
  | last parts begins noAtRule =>
      rw [← List.append_assoc]
      exact .last (.cons isPart parts) begins noAtRule
  | inMedia parts isMedia inside =>
      rw [← List.append_assoc]
      exact .inMedia (.cons isPart parts) isMedia inside

/-- An unfinished rule stands in the first part of a list or in the rest. -/
theorem Unfinished.in_media_or_rest {level : Level} {part rest rule : List Component}
    (isPart : level.IsPart part) (unfinished : Unfinished level (part ++ rest) rule) :
    (∃ content, level.IsMedia part content ∧ Unfinished .inBlock content rule) ∨
      Unfinished level rest rule := by
  generalize whole : part ++ rest = components at unfinished
  cases unfinished with
  | @last _ before more first parts begins noAtRule =>
      cases parts with
      | nil => exact absurd ⟨rest, whole⟩ (begins.not_prefix isPart)
      | @cons other later isOther areLater =>
          rw [List.append_assoc] at whole
          obtain ⟨-, rfl⟩ := isPart.eq_of_append isOther whole
          exact .inr (.last areLater begins noAtRule)
  | @inMedia _ before media content after rule parts isMedia inside =>
      cases parts with
      | nil =>
          obtain ⟨rfl, -⟩ := isPart.eq_of_append isMedia.isPart whole
          exact .inl ⟨content, isMedia, inside⟩
      | @cons other later isOther areLater =>
          rw [List.append_assoc] at whole
          obtain ⟨-, rfl⟩ := isPart.eq_of_append isOther whole
          exact .inr (.inMedia areLater isMedia inside)

theorem Unfinished.eq_of_begins {level : Level} {first : Component} {more rule : List Component}
    (begins : level.Begins first more) (unfinished : Unfinished level (first :: more) rule) :
    rule = first :: more ∧ first.atKeyword? = none := by
  generalize whole : first :: more = components at unfinished
  cases unfinished with
  | @last _ before otherMore otherFirst parts otherBegins noAtRule =>
      cases parts with
      | nil =>
          rw [List.nil_append] at whole
          obtain ⟨rfl, rfl⟩ := List.cons.inj whole
          exact ⟨rfl, noAtRule⟩
      | cons isPart =>
          rw [List.append_assoc] at whole
          exact absurd ⟨_, whole.symm⟩ (begins.not_prefix isPart)
  | inMedia parts isMedia inside =>
      cases parts with
      | nil => exact absurd ⟨_, whole.symm⟩ (begins.not_prefix isMedia.isPart)
      | cons isPart =>
          rw [List.append_assoc] at whole
          exact absurd ⟨_, whole.symm⟩ (begins.not_prefix isPart)

/-! ## What a part of a rule list contributes -/

/-- An unfinished rule is made up of components of its list, at some depth. -/
theorem Unfinished.subset_nodes {level : Level} {components rule : List Component}
    (unfinished : Unfinished level components rule) : rule ⊆ nodesAll components := by
  induction unfinished with
  | last _ _ _ =>
      rw [nodesAll_append]
      exact fun component member => List.mem_append_right _ (subset_nodesAll _ member)
  | @inMedia level before media content after rule _ isMedia _ ih =>
      obtain ⟨-, -, curly⟩ := isMedia
      obtain ⟨offset, rfl⟩ := eq_curly curly
      intro component member
      refine mem_nodesAll.2 ⟨.block offset .curly content, ?_, List.mem_cons_of_mem _ (ih member)⟩
      simp

/-- What is read after a statement has begun goes on with the statement. -/
theorem Level.Begins.statementsFrom_append {level : Level} {first : Component}
    {more : List Component} (begins : level.Begins first more) (rest : List Component) :
    statementsFrom level [] (first :: (more ++ rest)) =
      statementsFrom level (first :: more) rest := by
  have goesOn : ∀ next ∈ more,
      next.curlyContent? = none ∧ (first.atKeyword?.isSome = true → next.isDelim ";" = false) := by
    intro next member
    have still := begins.goesOn next member
    rw [endsAfter, Bool.or_eq_false_iff, Bool.and_eq_false_imp] at still
    exact ⟨Option.isSome_eq_false_iff.1 still.1 |> Option.isNone_iff_eq_none.1, still.2⟩
  rw [statementsFrom_first level begins.flat begins.counts]
  exact statementsFrom_read level (List.cons_ne_nil _ _) more rest
    (fun next member => (goesOn next member).1)
    (fun starts next member => (goesOn next member).2 starts)

/-- A rule list that one statement leaves unfinished fails unless the statement is an at-rule. -/
theorem Level.Begins.errorOf?_eq {level : Level} {first : Component} {more : List Component}
    (begins : level.Begins first more) :
    errorOf? (statementsFrom level [] (first :: more)) =
      if first.atKeyword?.isSome then none
      else some ((first :: more).getLast (List.cons_ne_nil _ _)).offset := by
  have whole := begins.statementsFrom_append []
  rw [List.append_nil] at whole
  rw [whole, statementsFrom, AtRule.ofComponents?, List.getLast?_eq_getLast_of_ne_nil]
  cases first.atKeyword? <;> rfl

/-- A media rule fails where the rule list in its block does. -/
theorem Level.IsMedia.errorOf?_append {level : Level} {media content : List Component}
    (isMedia : level.IsMedia media content) (rest : List Component) :
    errorOf? (statementsFrom level [] (media ++ rest)) =
      (errorOf? (statementsFrom .inBlock [] content)).or
        (errorOf? (statementsFrom level [] rest)) := by
  obtain @⟨first, block, more, _, begins, name, curly⟩ := isMedia
  obtain ⟨offset, rfl⟩ := eq_curly curly
  obtain ⟨keyword, isKeyword, isMedia⟩ := Option.map_eq_some_iff.1 name
  rw [List.cons_append, List.append_assoc, begins.statementsFrom_append, List.singleton_append,
    statementsFrom_cons, ended?_media isKeyword (beq_iff_eq.2 isMedia)]
  dsimp only
  rw [errorOf?_cons, errorOf?_map]

/-- A whole statement that is no media rule never fails, whatever its block holds. -/
theorem Level.IsPart.errorOf?_append {level : Level} {part : List Component}
    (isPart : level.IsPart part) (noMedia : ∀ content, ¬level.IsMedia part content)
    (rest : List Component) :
    errorOf? (statementsFrom level [] (part ++ rest)) =
      errorOf? (statementsFrom level [] rest) := by
  cases isPart with
  | @skipped gap skips =>
      rw [statementsFrom_skips level (by simpa using skips)]
  | @block block isBlock =>
      obtain ⟨content, curly⟩ := Option.isSome_iff_exists.1 isBlock
      have ends : ended? [] block = some (.ok (.style [] content)) := by
        rw [ended?, curly]
        rfl
      rw [List.singleton_append, statementsFrom_cons, ends, errorOf?_cons]
      rfl
  | @ended first last more begins ends =>
      -- only the block of a media rule is read as rules, so nothing in this statement can fail
      have finished : ∃ statement, ended? (first :: more) last = some (.ok statement) := by
        rw [ended?]
        cases curly : last.curlyContent? with
        | some content =>
            cases isKeyword : first.atKeyword? with
            | none => exact ⟨.style (first :: more) content, by simp [AtRule.ofComponents?, isKeyword]⟩
            | some name =>
                refine ⟨.atRule ⟨name, more, some content⟩, ?_⟩
                have noEnclosing : encloses ⟨name, more, some content⟩ = false := by
                  rw [encloses, Bool.and_eq_false_imp]
                  intro isMedia
                  exact absurd (.intro begins (by simp [isKeyword, beq_iff_eq.1 isMedia]) curly)
                    (noMedia content)
                simp [AtRule.ofComponents?, isKeyword, noEnclosing]
        | none =>
            rw [endsAfter, curly, Option.isSome_none, Bool.false_or, Bool.and_eq_true] at ends
            obtain ⟨name, isKeyword⟩ := Option.isSome_iff_exists.1 ends.1
            exact ⟨.atRule ⟨name, more, none⟩, by simp [AtRule.ofComponents?, isKeyword, ends.2]⟩
      obtain ⟨statement, ends⟩ := finished
      rw [List.cons_append, List.append_assoc, begins.statementsFrom_append, List.singleton_append,
        statementsFrom_cons, ends]
      dsimp only
      rw [errorOf?_cons]
      rfl

/-! ## The error of a rule list -/

theorem Level.IsPart.ne_nil {level : Level} {part : List Component} (isPart : level.IsPart part) :
    part ≠ [] := by
  cases isPart <;> exact List.cons_ne_nil _ _

/-- The list in the block of a media rule stands before what follows the rule. -/
theorem Level.IsMedia.ordered {level : Level} {media content rest : List Component}
    (isMedia : level.IsMedia media content) (ordered : OrderedAll (media ++ rest)) :
    OrderedAll content ∧
      ∀ here ∈ nodesAll content, ∀ there ∈ nodesAll rest, here.offset < there.offset := by
  obtain @⟨first, block, more, _, -, -, curly⟩ := isMedia
  obtain ⟨offset, rfl⟩ := eq_curly curly
  rw [← List.cons_append] at ordered
  obtain ⟨orderedMedia, -, precedes⟩ := orderedAll_append.1 ordered
  refine ⟨(orderedAll_concat.1 orderedMedia).2.1, ?_⟩
  intro here inContent there inRest
  exact precedes (.block offset .curly content) (by simp) there inRest here
    (List.mem_cons_of_mem _ inContent)

theorem Level.IsMedia.length_lt {level : Level} {media content : List Component}
    (isMedia : level.IsMedia media content) :
    (nodesAll content).length < (nodesAll media).length := by
  obtain @⟨first, block, more, _, -, -, curly⟩ := isMedia
  obtain ⟨offset, rfl⟩ := eq_curly curly
  rw [← List.cons_append, nodesAll_append, List.length_append, nodesAll, nodesAll, nodes]
  simp
  omega

/-- The offset at which a rule list fails, if it fails: that of a component of the first
unfinished rule. -/
def FailsAt (level : Level) (components : List Component) : Option Nat → Prop
  | none => ∀ rule, ¬Unfinished level components rule
  | some offset => ∃ rule, FirstUnfinished level components rule ∧
      ∃ component ∈ rule, component.offset = offset

theorem failsAt_nil (level : Level) : FailsAt level [] none := by
  intro rule unfinished
  generalize nothing : [] = components at unfinished
  cases unfinished with
  | last _ _ _ => simp at nothing
  | inMedia _ isMedia _ => simp [isMedia.isPart.ne_nil] at nothing

theorem Level.Begins.failsAt {level : Level} {first : Component} {more : List Component}
    (begins : level.Begins first more) :
    FailsAt level (first :: more) (errorOf? (statementsFrom level [] (first :: more))) := by
  rw [begins.errorOf?_eq]
  cases isKeyword : first.atKeyword? with
  | some name =>
      intro rule unfinished
      have noAtRule := (unfinished.eq_of_begins begins).2
      rw [isKeyword] at noAtRule
      cases noAtRule
  | none =>
      refine ⟨first :: more, ⟨.last .nil begins isKeyword, ?_⟩, _, List.getLast_mem _, rfl⟩
      exact fun other unfinished => .inl (unfinished.eq_of_begins begins).1

/-- A rule list fails in the block of a media rule before it fails further on. -/
theorem FailsAt.media {level : Level} {media content rest : List Component} {inside later : Option Nat}
    (isMedia : level.IsMedia media content) (ordered : OrderedAll (media ++ rest))
    (failsInside : FailsAt .inBlock content inside) (failsLater : FailsAt level rest later) :
    FailsAt level (media ++ rest) (inside.or later) := by
  have isPart := isMedia.isPart
  obtain ⟨-, precedes⟩ := isMedia.ordered ordered
  cases inside with
  | some offset =>
      obtain ⟨rule, isFirst, isMember⟩ := failsInside
      refine ⟨rule, ⟨.inMedia .nil isMedia isFirst.unfinished, ?_⟩, isMember⟩
      intro other unfinished
      rcases unfinished.in_media_or_rest isPart with ⟨otherContent, isOther, inMedia⟩ | inRest
      · obtain rfl := isMedia.content_unique isOther
        exact isFirst.first other inMedia
      · exact .inr fun here inRule there inOther => precedes here
          (isFirst.unfinished.subset_nodes inRule) there (inRest.subset_nodes inOther)
  | none =>
      have notInside : ∀ {rule}, Unfinished level (media ++ rest) rule →
          Unfinished level rest rule := by
        intro rule unfinished
        rcases unfinished.in_media_or_rest isPart with ⟨otherContent, isOther, inMedia⟩ | inRest
        · obtain rfl := isMedia.content_unique isOther
          exact absurd inMedia (failsInside rule)
        · exact inRest
      cases later with
      | none => exact fun rule unfinished => failsLater rule (notInside unfinished)
      | some offset =>
          obtain ⟨rule, isFirst, isMember⟩ := failsLater
          refine ⟨rule, ⟨.of_part isPart isFirst.unfinished, ?_⟩, isMember⟩
          exact fun other unfinished => isFirst.first other (notInside unfinished)

/-- A rule list does not fail in a statement that is no media rule. -/
theorem FailsAt.part {level : Level} {part rest : List Component} {later : Option Nat}
    (isPart : level.IsPart part) (noMedia : ∀ content, ¬level.IsMedia part content)
    (fails : FailsAt level rest later) : FailsAt level (part ++ rest) later := by
  have notInside : ∀ {rule}, Unfinished level (part ++ rest) rule → Unfinished level rest rule := by
    intro rule unfinished
    rcases unfinished.in_media_or_rest isPart with ⟨content, isMedia, -⟩ | inRest
    · exact absurd isMedia (noMedia content)
    · exact inRest
  cases later with
  | none => exact fun rule unfinished => fails rule (notInside unfinished)
  | some offset =>
      obtain ⟨rule, isFirst, isMember⟩ := fails
      refine ⟨rule, ⟨.of_part isPart isFirst.unfinished, ?_⟩, isMember⟩
      exact fun other unfinished => isFirst.first other (notInside unfinished)

/-- A rule list fails in its first unfinished rule, and not without one. -/
theorem failsAt_statementsFrom (level : Level) (components : List Component)
    (ordered : OrderedAll components) :
    FailsAt level components (errorOf? (statementsFrom level [] components)) := by
  match components with
  | [] =>
      rw [statementsFrom]
      exact failsAt_nil level
  | first :: more =>
      rcases level.begins_or_exists_part first more with begins | ⟨part, rest, isPart, split⟩
      · exact begins.failsAt
      · rw [split] at ordered ⊢
        have shorter : (nodesAll rest).length < (nodesAll (first :: more)).length := by
          have filled := List.length_pos_of_mem (subset_nodesAll part (List.head_mem isPart.ne_nil))
          rw [split, nodesAll_append, List.length_append]
          exact Nat.lt_add_of_pos_left filled
        have failsLater := failsAt_statementsFrom level rest (orderedAll_append.1 ordered).2.1
        by_cases isMedia : ∃ content, level.IsMedia part content
        · obtain ⟨content, isMedia⟩ := isMedia
          have deeper : (nodesAll content).length < (nodesAll (first :: more)).length := by
            rw [split, nodesAll_append, List.length_append]
            exact isMedia.length_lt.trans_le (Nat.le_add_right _ _)
          rw [isMedia.errorOf?_append]
          exact .media isMedia ordered
            (failsAt_statementsFrom .inBlock content (isMedia.ordered ordered).1) failsLater
        · rw [isPart.errorOf?_append (not_exists.1 isMedia)]
          exact failsLater.part isPart (not_exists.1 isMedia)
termination_by (nodesAll components).length

/-! ## The error of a sheet -/

theorem Stylesheet.parse_eq_error_iff {source : String} {failure : UnfinishedRule} :
    Stylesheet.parse source = .error failure ↔
      ∃ offset, errorOf? (statementsFrom .outermost [] (significantComponents source.toList)) =
        some offset ∧ failure = ⟨positionIn source offset⟩ := by
  rw [Stylesheet.parse]
  cases statementsFrom .outermost [] (significantComponents source.toList) with
  | ok statements => simp [errorOf?]
  | error offset => simp [errorOf?, eq_comm]

/-- The position after a text: its line is told by the newlines, and its column by what follows the
last of them. -/
theorem Position.exists_after (before : List Char) :
    ∃ full last, before = full ++ last ∧ (full = [] ∨ full.getLast? = some '\n') ∧
      '\n' ∉ last ∧ Position.after before = ⟨full.count '\n' + 1, last.length + 1⟩ := by
  have noNewline : '\n' ∉ (before.reverse.takeWhile (· ≠ '\n')).reverse := by
    rw [List.mem_reverse]
    intro among
    have other := List.mem_takeWhile_imp among
    exact absurd rfl (of_decide_eq_true other)
  have split : before = (before.reverse.dropWhile (· ≠ '\n')).reverse ++
      (before.reverse.takeWhile (· ≠ '\n')).reverse := by
    rw [← List.reverse_append, List.takeWhile_append_dropWhile, List.reverse_reverse]
  refine ⟨_, _, split, ?_, noNewline, ?_⟩
  · rw [List.reverse_eq_nil_iff, List.getLast?_reverse]
    cases dropped : before.reverse.dropWhile (· ≠ '\n') with
    | nil => exact .inl rfl
    | cons c rest =>
        have isNewline := List.head_dropWhile_not (· ≠ '\n') (l := before.reverse)
          (by rw [dropped]; exact List.cons_ne_nil _ _)
        simp only [dropped, List.head_cons, decide_eq_false_iff_not, not_not] at isNewline
        exact .inr (congrArg some isNewline)
  · have counted := congrArg (List.count '\n') split
    rw [List.count_append, List.count_eq_zero_of_not_mem noNewline, Nat.add_zero] at counted
    rw [Position.after, counted, List.length_reverse]

/-- A sheet cannot be read just if it has an unfinished rule in its outermost list or in that of
a media rule in such a list; the error then stands where a component of the first of these rules
was read, by the newlines before it and its distance from the last of them.  A whole statement
other than a media rule never makes its list fail, whatever its block holds. -/
theorem Stylesheet.parse_fails_iff (source : String) :
    ((∃ failure, Stylesheet.parse source = .error failure) ↔
      ∃ rule, Unfinished .outermost (significantComponents source.toList) rule) ∧
    (∀ failure, Stylesheet.parse source = .error failure →
      ∃ rule, FirstUnfinished .outermost (significantComponents source.toList) rule ∧
        ∃ component ∈ rule, ∃ before,
          component.ReadAfter (normalizeNewlines source.toList) before ∧
            ∃ full last, before = full ++ last ∧ (full = [] ∨ full.getLast? = some '\n') ∧
              '\n' ∉ last ∧ failure.position = ⟨full.count '\n' + 1, last.length + 1⟩) ∧
    ∀ level part rest, Level.IsPart level part → (∀ content, ¬level.IsMedia part content) →
      errorOf? (statementsFrom level [] (part ++ rest)) =
        errorOf? (statementsFrom level [] rest) := by
  have fails := failsAt_statementsFrom .outermost (significantComponents source.toList)
    (ordered_significantComponents source.toList)
  refine ⟨⟨?_, ?_⟩, ?_, fun level part rest isPart noMedia => isPart.errorOf?_append noMedia rest⟩
  · rintro ⟨failure, failed⟩
    obtain ⟨offset, isError, -⟩ := parse_eq_error_iff.1 failed
    rw [isError] at fails
    obtain ⟨rule, isFirst, -⟩ := fails
    exact ⟨rule, isFirst.unfinished⟩
  · rintro ⟨rule, unfinished⟩
    cases isError : errorOf? (statementsFrom .outermost [] (significantComponents source.toList)) with
    | none =>
        rw [isError] at fails
        exact absurd unfinished (fails rule)
    | some offset => exact ⟨_, parse_eq_error_iff.2 ⟨offset, isError, rfl⟩⟩
  · intro failure failed
    obtain ⟨offset, isError, rfl⟩ := parse_eq_error_iff.1 failed
    rw [isError] at fails
    obtain ⟨rule, isFirst, component, member, rfl⟩ := fails
    obtain ⟨before, readAfter⟩ := exists_readAfter (isFirst.unfinished.subset_nodes member)
    refine ⟨rule, isFirst, component, member, before, readAfter, ?_⟩
    obtain ⟨c, rest, split, -⟩ := readAfter.here
    have isAfter : positionIn source component.offset = .after before := by
      rw [positionIn, readAfter.offset, split, List.take_left]
    rw [isAfter]
    exact Position.exists_after before

/-- The first of two unfinished rules stands in a media rule; the unfinished declaration and the
unfinished rule of another at-rule do not count.  It stands behind the second of two newlines and a
blank. -/
theorem Stylesheet.parse_fails_iff_nested :
    let source := "a \x7bb \x7bc\x7d\x7d @font-face \x7bd\x7d\n@media e \x7bf\n g\x7d h"
    Stylesheet.parse source = .error ⟨⟨3, 2⟩⟩ ∧
      (∃ rule, Unfinished .outermost (significantComponents source.toList) rule) ∧
      ∃ rule, FirstUnfinished .outermost (significantComponents source.toList) rule ∧
        ∃ component ∈ rule, ∃ before,
          component.ReadAfter (normalizeNewlines source.toList) before := by
  intro source
  have failed : Stylesheet.parse source = .error ⟨⟨3, 2⟩⟩ := by decide +kernel
  obtain ⟨fails, position, -⟩ := Stylesheet.parse_fails_iff source
  obtain ⟨rule, isFirst, component, among, before, readAfter, -⟩ := position _ failed
  exact ⟨failed, fails.1 ⟨_, failed⟩, rule, isFirst, component, among, before, readAfter⟩

end StyleSieve
