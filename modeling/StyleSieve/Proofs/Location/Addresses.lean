import StyleSieve.Proofs.Fallible
import StyleSieve.Proofs.Location.Files

/-!
# References to addresses

A location is taken for an address by its first letters alone.  What is joined onto an address of
the web keeps its scheme, and so is an address again; a reference with a scheme of its own is left
as it is.
-/

namespace StyleSieve.Location

open Text

theorem isUrl_iff {location : String} : isUrl location = true ↔ "http".toList <+: location.toList :=
  List.isPrefixOf_iff_prefix

theorem isUrl_ofList (text : List Char) :
    isUrl (String.ofList text) = true ↔ "http".toList <+: text := by
  have letters : (String.ofList text).toList = text := String.toList_ofList
  rw [isUrl_iff, letters]

/-! ## Schemes -/

/-- The scheme that a text names by itself. -/
def ownScheme? (text : String) : Option (List Char) :=
  (takeScheme? (Url.significantChars text.toList)).map Prod.fst

theorem takeScheme?_ne_nil {text scheme after : List Char}
    (taken : takeScheme? text = some (scheme, after)) : scheme ≠ [] := by
  unfold takeScheme? at taken
  split at taken
  · split at taken
    · cases taken
      exact List.cons_ne_nil _ _
    · cases taken
  · cases taken

theorem scheme_parse {text scheme : List Char} {url : Url} (parsed : Url.parse text scheme = .ok url) :
    url.scheme = ((takeScheme? (Url.significantChars text)).map Prod.fst).getD scheme := by
  have named : ((takeScheme? (Url.significantChars text)).map Prod.fst).getD scheme =
      ((takeScheme? (Url.significantChars text)).getD (scheme, Url.significantChars text)).1 := by
    cases takeScheme? (Url.significantChars text) <;> rfl
  unfold Url.parse at parsed
  dsimp only at parsed
  obtain ⟨_, _, rfl⟩ := map_eq_ok parsed
  exact named.symm

/-- The scheme of an address of the web starts like the address. -/
theorem prefix_ownScheme {source : String} {scheme : List Char} (isWeb : isUrl source = true)
    (own : ownScheme? source = some scheme) : "http".toList <+: scheme := by
  obtain ⟨rest, whole⟩ := isUrl_iff.1 isWeb
  have significant : Url.significantChars source.toList =
      "http".toList ++ rest.filter fun c => c ≠ '\t' ∧ c ≠ '\r' ∧ c ≠ '\n' := by
    rw [← whole]
    rfl
  obtain ⟨⟨named, after⟩, taken, rfl⟩ := Option.map_eq_some_iff.1 own
  rw [significant] at taken
  unfold takeScheme? at taken
  split at taken
  · rename_i c more following cut
    split at taken
    · cases taken
      have first := congrArg Prod.fst cut
      rw [cutAt_fst, List.takeWhile_append_of_pos (List.all_eq_true.1 (by decide))] at first
      change _ = c :: more at first
      change "http".toList <+: Css.lowerAscii (c :: more)
      rw [← first, Css.lowerAscii, List.map_append]
      exact List.prefix_append _ _
    · cases taken
  · cases taken

theorem scheme_prefix_write {url : Url} (filled : url.scheme ≠ []) : url.scheme <+: url.write := by
  rw [Url.write, if_neg filled, List.append_assoc, List.append_assoc, List.append_assoc]
  exact List.prefix_append _ _

theorem isAmong_relativeSchemes {scheme : List Char} (isWeb : "http".toList <+: scheme) :
    isAmong scheme relativeSchemes = true ↔ scheme = "http".toList ∨ scheme = "https".toList := by
  have web : ∀ listed ∈ relativeSchemes, "http".toList <+: listed.toList →
      listed = "http" ∨ listed = "https" := by
    decide
  have spelled : (String.ofList scheme).toList = scheme := String.toList_ofList
  constructor
  · intro among
    have listed := List.contains_iff_mem.1 among
    rcases web _ listed (spelled.symm ▸ isWeb) with same | same
    · exact .inl (spelled.symm.trans (congrArg String.toList same))
    · exact .inr (spelled.symm.trans (congrArg String.toList same))
  · rintro (rfl | rfl) <;> decide

/-! ## Joined references -/

/-- A reference with another scheme is left as it is; from any other one an address with the same
scheme is written. -/
theorem exists_of_join {base reference joined : List Char} (isFilled : base ≠ [])
    (named : reference ≠ []) (joins : Url.join base reference = .ok joined) :
    ∃ origin target, Url.parse base = .ok origin ∧ Url.parse reference origin.scheme = .ok target ∧
      (¬(target.scheme = origin.scheme ∧ isAmong target.scheme relativeSchemes = true) ∧
          joined = reference ∨
        (target.scheme = origin.scheme ∧ isAmong target.scheme relativeSchemes = true) ∧
          ∃ url : Url, url.scheme = origin.scheme ∧ joined = url.write) := by
  rw [Url.join, if_neg isFilled, if_neg named] at joins
  obtain ⟨origin, parsed, joins⟩ := bind_eq_ok joins
  obtain ⟨target, targetParsed, joins⟩ := bind_eq_ok joins
  refine ⟨origin, target, parsed, targetParsed, ?_⟩
  split at joins
  · rename_i foreign
    refine .inl ⟨fun both => ?_, (Except.ok.inj joins).symm⟩
    rcases foreign with other | unrelated
    · exact other both.1
    · rw [both.2] at unrelated
      cases unrelated
  · rename_i foreign
    rw [not_or, ne_eq, not_not, Bool.not_eq_false] at foreign
    refine .inr ⟨foreign, ?_⟩
    -- whatever part of the path is kept, the scheme is the one of the target
    dsimp only at joins
    split at joins
    · exact ⟨target, foreign.1, (Except.ok.inj joins).symm⟩
    split at joins
    · refine ⟨_, ?_, (Except.ok.inj joins).symm⟩
      exact foreign.1
    · refine ⟨_, ?_, (Except.ok.inj joins).symm⟩
      exact foreign.1

/-- Whether a reference is joined onto an address with a scheme: it is empty, or addresses with the
scheme allow relative references and it names no other scheme. -/
def IsJoined (scheme : List Char) (reference : String) : Prop :=
  reference = "" ∨ (scheme = "http".toList ∨ scheme = "https".toList) ∧
    ∀ own ∈ ownScheme? reference, own = scheme

instance (scheme : List Char) (reference : String) : Decidable (IsJoined scheme reference) :=
  inferInstanceAs (Decidable (_ ∨ _ ∧ ∀ own ∈ ownScheme? reference, own = scheme))

/-- What is joined onto an address of the web starts with its scheme; any other reference is left
as it is. -/
theorem join_cases {source reference : String} {scheme joined : List Char}
    (isWeb : isUrl source = true) (own : ownScheme? source = some scheme)
    (joins : Url.join source.toList reference.toList = .ok joined) :
    IsJoined scheme reference ∧ "http".toList <+: joined ∨
      ¬IsJoined scheme reference ∧ joined = reference.toList := by
  have startsWeb := prefix_ownScheme isWeb own
  have isFilled : source.toList ≠ [] := by
    intro empty
    rw [isUrl_iff, empty] at isWeb
    revert isWeb
    decide
  -- an empty reference leaves the source as it is, whatever can be parsed
  by_cases empty : reference = ""
  · subst empty
    rw [Url.join, if_neg isFilled] at joins
    cases joins
    exact .inl ⟨.inl rfl, isUrl_iff.1 isWeb⟩
  have named : reference.toList ≠ [] := fun nothing => empty (String.toList_inj.1 nothing)
  obtain ⟨origin, target, parsed, targetParsed, joined⟩ := exists_of_join isFilled named joins
  have originScheme : origin.scheme = scheme := by
    rw [scheme_parse parsed]
    exact congrArg (Option.getD · []) own
  have targetScheme : target.scheme = (ownScheme? reference).getD scheme := by
    rw [scheme_parse targetParsed, originScheme]
    rfl
  have keeps : target.scheme = scheme ↔ ∀ own ∈ ownScheme? reference, own = scheme := by
    rw [targetScheme]
    cases ownScheme? reference <;> simp
  have isJoined : IsJoined scheme reference ↔
      target.scheme = origin.scheme ∧ isAmong target.scheme relativeSchemes = true := by
    rw [originScheme, IsJoined, or_iff_right empty, ← isAmong_relativeSchemes startsWeb, ← keeps,
      and_comm]
    exact and_congr_right fun same => by rw [same]
  rw [isJoined]
  rcases joined with ⟨foreign, left⟩ | ⟨related, url, urlScheme, written⟩
  · exact .inr ⟨foreign, left⟩
  · have filled : url.scheme ≠ [] := by
      rintro nothing
      rw [← originScheme, ← urlScheme, nothing] at startsWeb
      revert startsWeb
      decide
    refine .inl ⟨related, ?_⟩
    rw [written]
    exact (urlScheme.trans originScheme ▸ startsWeb).trans (scheme_prefix_write filled)

/-! ## Paths that look like addresses -/

/-- Whether a stack is written like an address of the web. -/
def PathStack.LooksWeb (stack : PathStack) : Prop :=
  stack.root = .absent ∧ ∃ component ∈ stack.components.head?, "http".toList <+: component

instance (stack : PathStack) : Decidable stack.LooksWeb :=
  inferInstanceAs (Decidable (_ ∧ ∃ component ∈ stack.components.head?, _))

theorem prefix_joinWith_iff {components : List (List Char)} :
    "http".toList <+: joinWith '/' components ↔
      ∃ component ∈ components.head?, "http".toList <+: component := by
  cases components with
  | nil => simp [joinWith]
  | cons component rest =>
      simp only [List.head?_cons, Option.mem_def, Option.some.injEq, exists_eq_left']
      by_cases last : rest = []
      · rw [last]
        rfl
      · rw [joinWith_cons last]
        refine ⟨fun starts => prefix_of_prefix_append starts ?_, fun starts => ?_⟩
        · intro c first
          cases first
          decide
        · exact starts.trans (List.prefix_append _ _)

theorem PathStack.prefix_text_iff (stack : PathStack) :
    "http".toList <+: stack.root.text ++ joinWith '/' stack.components ↔ stack.LooksWeb := by
  rw [LooksWeb, ← prefix_joinWith_iff]
  cases stack.root with
  | absent => exact (and_iff_right rfl).symm
  | single | double =>
      refine iff_of_false ?_ fun both => by cases both.1
      rintro ⟨rest, starts⟩
      cases starts

/-- The normal form of a path looks like an address if its stack does. -/
theorem prefix_normalPath_iff (path : List Char) :
    "http".toList <+: normalPath path ↔ (PathStack.ofPath path).LooksWeb := by
  have ended (text : List Char) :
      "http".toList <+: text.takeWhile (· ≠ '\x00') ↔ "http".toList <+: text := by
    refine ⟨fun starts => starts.trans (List.takeWhile_prefix _), ?_⟩
    rintro ⟨rest, rfl⟩
    rw [List.takeWhile_append_of_pos (List.all_eq_true.1 (by decide))]
    exact List.prefix_append _ _
  rw [normalPath, PathStack.normalNames_eq_components, ← PathStack.text_root_ofPath,
    ← PathStack.prefix_text_iff, ← ended ((PathStack.ofPath path).root.text ++ _)]
  split
  · rename_i empty
    rw [empty]
    decide
  · rename_i filled
    rw [filled]

end StyleSieve.Location
