import StyleSieve.Css.Component

/-!
# Texts that lag

The text that is written for a token may differ from the text that it was read from.  The
written text never runs ahead of the read one: where it holds all of the read text, it
ends.  Nor does it end in fewer closers.  Both hold of two texts that are put together when
they hold of the parts.  Spaces do not count, since they are trimmed and taken by escapes.
-/

namespace StyleSieve.Css

/-! ## Texts without spaces -/

/-- A text without its spaces. -/
def unspaced (text : List Char) : List Char :=
  text.filter (· ≠ ' ')

/-- The number of characters of a text that are no spaces. -/
def size (text : List Char) : Nat :=
  (unspaced text).length

@[simp] theorem unspaced_nil : unspaced [] = [] := rfl

@[simp] theorem unspaced_append (first second : List Char) :
    unspaced (first ++ second) = unspaced first ++ unspaced second :=
  List.filter_append ..

theorem unspaced_cons {c : Char} (solid : c ≠ ' ') (text : List Char) :
    unspaced (c :: text) = c :: unspaced text :=
  List.filter_cons_of_pos (by simpa using solid)

theorem mem_unspaced {c : Char} {text : List Char} :
    c ∈ unspaced text ↔ c ∈ text ∧ c ≠ ' ' := by
  simp [unspaced]

@[simp] theorem size_append (first second : List Char) :
    size (first ++ second) = size first + size second := by
  rw [size, unspaced_append, List.length_append]
  rfl

theorem size_cons {c : Char} (solid : c ≠ ' ') (text : List Char) :
    size (c :: text) = size text + 1 := by
  rw [size, unspaced_cons solid]
  rfl

theorem size_le_length (text : List Char) : size text ≤ text.length :=
  List.length_filter_le _ text

/-! ## Closers -/

/-- The characters that end a block or a statement. -/
def isCloser (c : Char) : Bool :=
  c == ')' || c == ']' || c == '\x7d' || c == ';'

/-- The number of closers that a text ends with. -/
def closingRun (text : List Char) : Nat :=
  (text.reverse.takeWhile isCloser).length

theorem closingRun_append_closers (first : List Char) {second : List Char}
    (closers : second.all isCloser = true) :
    closingRun (first ++ second) = closingRun first + second.length := by
  have reversed : ∀ c ∈ second.reverse, isCloser c = true := fun c member =>
    List.all_eq_true.1 closers c (List.mem_reverse.1 member)
  rw [closingRun, closingRun, List.reverse_append, List.takeWhile_append_of_pos reversed,
    List.length_append, List.length_reverse, Nat.add_comm]

theorem closingRun_closers {text : List Char} (closers : text.all isCloser = true) :
    closingRun text = text.length := by
  have run := closingRun_append_closers [] closers
  rw [List.nil_append] at run
  rw [run]
  exact Nat.zero_add _

theorem closingRun_append_other (first : List Char) {second : List Char}
    (other : second.all isCloser = false) :
    closingRun (first ++ second) = closingRun second := by
  have stops : (second.reverse.takeWhile isCloser).length ≠ second.reverse.length := by
    intro whole
    have same := (List.takeWhile_prefix isCloser).eq_of_length whole
    have closers : second.all isCloser = true := by
      rw [← List.all_reverse, ← same]
      exact List.all_takeWhile
    rw [closers] at other
    cases other
  rw [closingRun, closingRun, List.reverse_append, List.takeWhile_append, if_neg stops]

theorem closingRun_le_append (first second : List Char) :
    closingRun second ≤ closingRun (first ++ second) := by
  cases closers : second.all isCloser with
  | false => exact Nat.le_of_eq (closingRun_append_other first closers).symm
  | true =>
      rw [closingRun_append_closers first closers, closingRun_closers closers]
      exact Nat.le_add_left _ _

theorem all_append_of_other {first second : List Char}
    (other : first.all isCloser = false ∨ second.all isCloser = false) :
    (first ++ second).all isCloser = false := by
  rw [List.all_append, Bool.and_eq_false_iff]
  exact other

theorem closingRun_eq_zero {text : List Char} (others : ∀ c ∈ text, isCloser c = false) :
    closingRun text = 0 := by
  cases reversed : text.reverse with
  | nil => rw [closingRun, reversed]; rfl
  | cons c more =>
      have other : isCloser c = false := by
        refine others c (List.mem_reverse.1 ?_)
        rw [reversed]
        exact List.mem_cons_self
      rw [closingRun, reversed, List.takeWhile_cons_of_neg (by simp [other])]
      rfl

theorem all_eq_false_of_mem {c : Char} {text : List Char} (member : c ∈ text)
    (other : isCloser c = false) : text.all isCloser = false := by
  rw [List.all_eq_false]
  exact ⟨c, member, by simp [other]⟩

/-! ## Lagging -/

/-- A written text never runs ahead of a read one: where all of the read text stands in it,
it ends. -/
def NeverLeads (written read : List Char) : Prop :=
  ∀ before after, written = before ++ (read ++ after) → after = []

/-- A written text ends in as many closers as a read one.  A read text of closers only is
written as it is. -/
inductive ClosesLike (written read : List Char) : Prop where
  | same : written = read → read.all isCloser = true → ClosesLike written read
  | more : closingRun read ≤ closingRun written → read.all isCloser = false →
      ClosesLike written read

theorem NeverLeads.of_length_le {written read : List Char}
    (short : written.length ≤ read.length) : NeverLeads written read := by
  intro before after whole
  have length := congrArg List.length whole
  rw [List.length_append, List.length_append] at length
  exact List.eq_nil_of_length_eq_zero (by omega)

/-- A text without some character of the read one never holds all of it. -/
theorem NeverLeads.of_not_mem {c : Char} {written read : List Char} (member : c ∈ read)
    (missing : c ∉ written) : NeverLeads written read := by
  intro before after whole
  rw [whole] at missing
  exact absurd (List.mem_append_right before (List.mem_append_left after member)) missing

/-- Where all of two read texts stands in two written ones, the second one ends if the first
one ends where it holds all of the first read text. -/
theorem leads_append {written read more others front after : List Char}
    (first : ∀ middle, written = front ++ (read ++ middle) → middle = [])
    (second : ∀ front, more = front ++ (others ++ after) → after = [])
    (whole : written ++ more = front ++ ((read ++ others) ++ after)) : after = [] := by
  rw [List.append_assoc, ← List.append_assoc front] at whole
  rcases List.append_eq_append_iff.1 whole with ⟨middle, _, later⟩ | ⟨middle, early, later⟩
  · exact second middle later
  · -- the first written text cannot hold more than the first read one
    rw [List.append_assoc] at early
    rw [first middle early, List.nil_append] at later
    exact second [] later.symm

theorem NeverLeads.append {written read more others : List Char} (first : NeverLeads written read)
    (second : NeverLeads more others) : NeverLeads (written ++ more) (read ++ others) :=
  fun front after whole => leads_append (first front) (fun front => second front after) whole

theorem ClosesLike.append {written read more others : List Char}
    (first : ClosesLike written read) (second : ClosesLike more others) :
    ClosesLike (written ++ more) (read ++ others) := by
  cases second with
  | same same closers =>
      subst same
      cases first with
      | same same closersFirst =>
          refine .same (by rw [same]) ?_
          rw [List.all_append, closersFirst, closers]
          rfl
      | more run other =>
          refine .more ?_ (all_append_of_other (.inl other))
          rw [closingRun_append_closers _ closers, closingRun_append_closers _ closers]
          exact Nat.add_le_add_right run _
  | more run other =>
      refine .more ?_ (all_append_of_other (.inr other))
      rw [closingRun_append_other _ other]
      exact Nat.le_trans run (closingRun_le_append _ _)

/-- Characters that are not written, before those that are read. -/
theorem NeverLeads.skip {written read : List Char} (leads : NeverLeads written read)
    (skipped : List Char) : NeverLeads written (skipped ++ read) := by
  intro before after whole
  rw [List.append_assoc, ← List.append_assoc before] at whole
  exact leads _ _ whole

/-- A written text may break off. -/
theorem NeverLeads.take {written more read : List Char} (leads : NeverLeads (written ++ more) read) :
    NeverLeads written read := by
  intro before after whole
  refine (List.append_eq_nil_iff.1 (leads before (after ++ more) ?_)).1
  rw [whole]
  simp

theorem ClosesLike.skip {written read : List Char} (closes : ClosesLike written read)
    {skipped : List Char} (ends : closingRun skipped = 0) :
    ClosesLike written (skipped ++ read) := by
  cases all : skipped.all isCloser with
  | true =>
      rw [closingRun_closers all] at ends
      rw [List.eq_nil_of_length_eq_zero ends]
      exact closes
  | false =>
      refine .more ?_ (all_append_of_other (.inl all))
      cases closes with
      | same same closers =>
          rw [same, closingRun_append_closers _ closers, closingRun_closers closers, ends]
          exact Nat.le_of_eq (Nat.zero_add _)
      | more run other => rw [closingRun_append_other _ other]; exact run

theorem ClosesLike.refl (text : List Char) : ClosesLike text text := by
  cases closers : text.all isCloser with
  | true => exact .same rfl closers
  | false => exact .more (Nat.le_refl _) closers

/-- A written text lags behind a read one. -/
structure Lags (written read : List Char) : Prop where
  neverLeads : NeverLeads (unspaced written) (unspaced read)
  closes : ClosesLike (unspaced written) (unspaced read)

theorem Lags.refl (text : List Char) : Lags text text :=
  ⟨.of_length_le (Nat.le_refl _), .refl _⟩

theorem Lags.append {written read more others : List Char} (first : Lags written read)
    (second : Lags more others) : Lags (written ++ more) (read ++ others) := by
  constructor
  · rw [unspaced_append, unspaced_append]
    exact first.neverLeads.append second.neverLeads
  · rw [unspaced_append, unspaced_append]
    exact first.closes.append second.closes

/-- What is read but not written may stand before a text that lags. -/
theorem Lags.skip {written read : List Char} (lags : Lags written read) {skipped : List Char}
    (ends : closingRun (unspaced skipped) = 0) : Lags written (skipped ++ read) := by
  constructor
  · rw [unspaced_append]
    exact lags.neverLeads.skip _
  · rw [unspaced_append]
    exact lags.closes.skip ends

/-- A text that is no longer than the read one lags behind it, if what is read is no closer. -/
theorem Lags.of_size {written read : List Char} (short : size written ≤ size read)
    (run : closingRun (unspaced read) ≤ closingRun (unspaced written))
    (other : (unspaced read).all isCloser = false) : Lags written read :=
  ⟨.of_length_le short, .more run other⟩

/-- No closers are written between a text and the end of what it was read from. -/
theorem ClosesLike.nothing_between {written read before middle : List Char}
    (closes : ClosesLike written read) (other : written.all isCloser = false)
    (areClosers : middle.all isCloser = true) (whole : before ++ read = written ++ middle) :
    middle = [] := by
  cases closes with
  | same same closers =>
      rw [same, closers] at other
      cases other
  | more run otherRead =>
      have runs := congrArg closingRun whole
      rw [closingRun_append_other _ otherRead, closingRun_append_closers _ areClosers] at runs
      exact List.eq_nil_of_length_eq_zero (by omega)

/-- The closers that are written after a text that lags are what is read after it. -/
theorem Lags.eq_of_closers {written read : List Char} (lags : Lags written read)
    {before after closers : List Char} (areClosers : closers.all isCloser = true)
    (solid : closers ≠ [] → (unspaced written).all isCloser = false)
    (whole : unspaced written ++ closers = before ++ (unspaced read ++ after)) :
    after = closers := by
  rw [← List.append_assoc] at whole
  rcases List.append_eq_append_iff.1 whole with ⟨middle, early, later⟩ | ⟨middle, early, later⟩
  · subst later
    cases middle with
    | nil => rfl
    | cons c others =>
        have closersMiddle : (c :: others).all isCloser = true := by
          rw [List.all_append, Bool.and_eq_true] at areClosers
          exact areClosers.1
        have nothing := lags.closes.nothing_between (solid (by simp)) closersMiddle early
        cases nothing
  · rw [List.append_assoc] at early
    rw [lags.neverLeads before middle early, List.nil_append] at later
    exact later

end StyleSieve.Css
