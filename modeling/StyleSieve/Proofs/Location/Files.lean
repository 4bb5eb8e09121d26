import StyleSieve.Location.Resolve
import StyleSieve.Proofs.Location.PathStack

/-!
# References to files

A reference in a file leads from the root directory, from the directory of style sheets, or from
beside the document.  The components of that directory and then those of the reference are
followed on a stack, and the location is what the stack is written as.
-/

namespace StyleSieve.Location

open Text

/-! ## Joined paths -/

theorem PathRoot.ofPath_append {base rest : List Char}
    (ends : rest.head? ≠ some '/' ∨ ∃ c ∈ base, c ≠ '/') :
    PathRoot.ofPath (base ++ rest) = PathRoot.ofPath base := by
  have slashes : (base ++ rest).takeWhile (· = '/') = base.takeWhile (· = '/') := by
    rcases ends with relative | ⟨c, member, other⟩
    · refine takeWhile_append_of_stop base fun c first => decide_eq_false fun same => relative ?_
      rw [first, same]
    · rw [List.takeWhile_append, if_neg]
      intro all
      have only := (List.takeWhile_prefix (· = '/')).eq_of_length all
      rw [List.takeWhile_eq_self_iff] at only
      exact other (of_decide_eq_true (only c member))
  rw [ofPath, slashes, ofPath]

/-- A relative path is followed on the stack of the path before it. -/
theorem ofPath_joinPaths (base : List Char) {relative : List Char}
    (isRelative : relative.head? ≠ some '/') :
    PathStack.ofPath (joinPaths base relative) =
      (PathStack.ofPath base).followAll (splitAtChar '/' relative) := by
  rw [joinPaths]
  rcases List.eq_nil_or_concat base with rfl | ⟨front, c, rfl⟩
  · rw [if_pos (.inr rfl), PathStack.ofPath, ← List.nil_append relative,
      PathRoot.ofPath_append (.inl isRelative)]
    rfl
  · rw [List.concat_eq_append, if_neg (by simp [isRelative]), List.getLast?_concat,
      PathStack.ofPath, PathStack.ofPath]
    by_cases ends : c = '/'
    · rw [ends, if_pos rfl, PathRoot.ofPath_append (.inl isRelative), List.append_assoc,
        List.singleton_append, splitAtChar_append, splitAtChar_append, PathStack.followAll_append,
        PathStack.followAll_append]
      rfl
    · have other : ∃ d ∈ front ++ [c], d ≠ '/' := ⟨c, by simp, ends⟩
      rw [if_neg (by simpa using ends), PathRoot.ofPath_append (.inr other), splitAtChar_append,
        PathStack.followAll_append]

/-! ## Destinations -/

/-- The path that a reference without its query is followed from. -/
def basePath (source reference : List Char) (lookup : Lookup) : List Char :=
  let root := (lookup.root.getD "").toList
  let subdirectory := lookup.subdirectory.toList
  if reference.head? = some '/' ∧ root ≠ [] then root
  else if subdirectory.head? = some '/' then subdirectory
  else joinPaths (directory source) subdirectory

/-- The stack that a reference leads to from a document in a file: the reference is cut at its
first question mark and then at its first hash, and its slashes in front do not count. -/
def destination (source reference : List Char) (lookup : Lookup) : PathStack :=
  let path := (reference.takeWhile (· ≠ '?')).takeWhile (· ≠ '#')
  let base := basePath source path lookup
  (PathStack.start (PathRoot.ofPath base)).followAll
    (splitAtChar '/' base ++ splitAtChar '/' (path.dropWhile (· = '/')))

theorem withoutQuery_eq (reference : List Char) :
    withoutQuery reference = (reference.takeWhile (· ≠ '?')).takeWhile (· ≠ '#') := by
  have notEqual (d : Char) : (fun c => !(c == d)) = fun c => decide (c ≠ d) := by
    funext c
    rw [beq_eq_decide, decide_not]
  rw [withoutQuery, cutAt_fst, cutAt_fst, notEqual, notEqual]

theorem joinPaths_rooted (base : List Char) {path : List Char} (rooted : path.head? = some '/') :
    joinPaths base path = path :=
  if_pos (.inl rooted)

theorem resolveFile_eq_normalPath (source reference : List Char) (lookup : Lookup) :
    resolveFile source reference lookup =
      normalPath (joinPaths (basePath source (withoutQuery reference) lookup)
        ((withoutQuery reference).dropWhile (· = '/'))) := by
  have beside : (if lookup.subdirectory.toList.head? = some '/' then lookup.subdirectory.toList
      else joinPaths (directory source) lookup.subdirectory.toList) =
        joinPaths (directory source) lookup.subdirectory.toList := by
    split
    · rename_i rooted
      rw [joinPaths_rooted _ rooted]
    · rfl
  have slashes : (withoutQuery reference).dropWhile (· == '/') =
      (withoutQuery reference).dropWhile (· = '/') := rfl
  rw [resolveFile, basePath, beside, slashes]
  cases lookup.root with
  | none => simp [resolveFile.beside]
  | some root =>
      cases letters : root.toList with
      | nil => simp [letters, resolveFile.beside]
      | cons c rest =>
          simp only [Option.map_some, letters, Option.getD_some]
          by_cases rooted : (withoutQuery reference).head? = some '/'
          · rw [if_pos rooted, if_pos ⟨rooted, List.cons_ne_nil c rest⟩]
          · rw [if_neg rooted, if_neg fun both => rooted both.1, resolveFile.beside]

/-! ## Clean paths -/

theorem mem_directory {path : List Char} {c : Char} (member : c ∈ directory path) : c ∈ path := by
  have suffix : (path.reverse.dropWhile (· ≠ '/')).reverse <+: path := by
    have dropped := List.dropWhile_suffix (l := path.reverse) (· ≠ '/')
    have reversed := List.reverse_prefix.2 dropped
    rwa [List.reverse_reverse] at reversed
  rw [directory] at member
  split at member
  · exact suffix.mem member
  · rw [List.mem_reverse] at member
    have inner := (List.dropWhile_suffix _).mem member
    exact suffix.mem (List.mem_reverse.1 inner)

theorem mem_joinPaths {base path : List Char} {c : Char} (member : c ∈ joinPaths base path) :
    c ∈ base ∨ c ∈ path ∨ c = '/' := by
  rw [joinPaths] at member
  split at member
  · exact .inr (.inl member)
  split at member
  · rcases List.mem_append.1 member with first | second
    · exact .inl first
    · exact .inr (.inl second)
  · rcases List.mem_append.1 member with first | second
    · exact .inl first
    · rcases List.mem_cons.1 second with slash | later
      · exact .inr (.inr slash)
      · exact .inr (.inl later)

theorem mem_basePath {source reference : List Char} {lookup : Lookup} {c : Char}
    (member : c ∈ basePath source reference lookup) :
    c ∈ source ∨ c ∈ (lookup.root.getD "").toList ∨ c ∈ lookup.subdirectory.toList ∨ c = '/' := by
  rw [basePath] at member
  split at member
  · exact .inr (.inl member)
  split at member
  · exact .inr (.inr (.inl member))
  · rcases mem_joinPaths member with first | second | slash
    · exact .inl (mem_directory first)
    · exact .inr (.inr (.inl second))
    · exact .inr (.inr (.inr slash))

theorem mem_withoutQuery {reference : List Char} {c : Char} (member : c ∈ withoutQuery reference) :
    c ∈ reference := by
  rw [withoutQuery_eq] at member
  exact (List.takeWhile_prefix _).mem ((List.takeWhile_prefix _).mem member)

/-- Whether no NUL is in what a reference is resolved from. -/
def IsClean (source reference : String) (lookup : Lookup) : Prop :=
  ∀ text ∈ [source, reference, lookup.root.getD "", lookup.subdirectory], '\x00' ∉ text.toList

instance (source reference : String) (lookup : Lookup) : Decidable (IsClean source reference lookup) :=
  inferInstanceAs (Decidable (∀ text ∈ [_, _, _, _], _))

theorem IsClean.joinPaths {source reference : String} {lookup : Lookup}
    (clean : IsClean source reference lookup) :
    '\x00' ∉ joinPaths (basePath source.toList (withoutQuery reference.toList) lookup)
      ((withoutQuery reference.toList).dropWhile (· = '/')) := by
  intro member
  rcases mem_joinPaths member with base | relative | slash
  · rcases mem_basePath base with inSource | inRoot | inSubdirectory | slash
    · exact clean source (by simp) inSource
    · exact clean (lookup.root.getD "") (by simp) inRoot
    · exact clean lookup.subdirectory (by simp) inSubdirectory
    · cases slash
  · exact clean reference (by simp) (mem_withoutQuery ((List.dropWhile_suffix _).mem relative))
  · cases slash

/-! ## Files -/

/-- The destination of a reference is the stack of the path that it is joined to. -/
theorem destination_eq (source reference : List Char) (lookup : Lookup) :
    destination source reference lookup =
      PathStack.ofPath (joinPaths (basePath source (withoutQuery reference) lookup)
        ((withoutQuery reference).dropWhile (· = '/'))) := by
  have relative : ((withoutQuery reference).dropWhile (· = '/')).head? ≠ some '/' := by
    intro starts
    have stays := List.head?_dropWhile_not (· = '/') (withoutQuery reference)
    rw [starts] at stays
    simp at stays
  rw [ofPath_joinPaths _ relative, destination, ← withoutQuery_eq, PathStack.followAll_append]
  rfl

/-- What follows a question mark or a hash in a reference does not count. -/
theorem withoutQuery_append (reference : List Char) {suffix : List Char}
    (starts : suffix.head? = some '?' ∨ suffix.head? = some '#') :
    withoutQuery (reference ++ suffix) = withoutQuery reference := by
  rw [withoutQuery_eq, withoutQuery_eq]
  rcases starts with query | fragment
  · rw [takeWhile_append_of_stop reference fun c first => ?_]
    rw [query] at first
    cases first
    decide
  · rw [List.takeWhile_append]
    split
    · rename_i all
      have whole := (List.takeWhile_prefix (l := reference) (· ≠ '?')).eq_of_length all
      rw [whole, takeWhile_append_of_stop reference fun c first => ?_]
      cases suffix with
      | nil => cases fragment
      | cons d rest =>
          cases fragment
          cases first
          decide
    · rfl

/-- Whether a reference leads to a file: it is no address, and its document is in a file. -/
def LeadsToFile (source reference : String) : Prop :=
  isUrl source = false ∧ isUrl reference = false ∧ "//".toList.isPrefixOf reference.toList = false

instance (source reference : String) : Decidable (LeadsToFile source reference) :=
  inferInstanceAs (Decidable (_ ∧ _))

theorem LeadsToFile.resolve {source reference : String} (leads : LeadsToFile source reference)
    (lookup : Lookup) :
    resolve source reference lookup =
      .ok (String.ofList (resolveFile source.toList reference.toList lookup)) := by
  obtain ⟨inFile, noUrl, noHost⟩ := leads
  rw [Location.resolve, schemeOf, noUrl, inFile, noHost]
  rfl

/-- A word that starts a longer text starts the text if no letter of it follows the text. -/
theorem prefix_of_prefix_append {word text suffix : List Char} (starts : word <+: text ++ suffix)
    (other : ∀ c, suffix.head? = some c → c ∉ word) : word <+: text := by
  rcases List.prefix_or_prefix_of_prefix starts (List.prefix_append text suffix) with short | long
  · exact short
  · obtain ⟨tail, rfl⟩ := long
    rw [List.prefix_append_right_inj] at starts
    cases tail with
    | nil =>
        rewrite [List.append_nil]
        exact List.prefix_rfl
    | cons c rest =>
        obtain ⟨more, rfl⟩ := starts
        exact absurd (List.mem_append_right text List.mem_cons_self) (other c rfl)

theorem LeadsToFile.append {source reference suffix : String} (leads : LeadsToFile source reference)
    (starts : suffix.toList.head? = some '?' ∨ suffix.toList.head? = some '#') :
    LeadsToFile source (reference ++ suffix) := by
  obtain ⟨inFile, noUrl, noHost⟩ := leads
  have same (word : String) (plain : '?' ∉ word.toList ∧ '#' ∉ word.toList)
      (notBefore : word.toList.isPrefixOf reference.toList = false) :
      word.toList.isPrefixOf (reference ++ suffix).toList = false := by
    rw [Bool.eq_false_iff, ne_eq, List.isPrefixOf_iff_prefix] at notBefore ⊢
    rw [String.toList_append]
    refine fun longer => notBefore (prefix_of_prefix_append longer fun c first => ?_)
    rcases starts with query | fragment
    · rw [query] at first
      exact Option.some.inj first ▸ plain.1
    · rw [fragment] at first
      exact Option.some.inj first ▸ plain.2
  exact ⟨inFile, same "http" (by decide) noUrl, same "//" (by decide) noHost⟩

/-- A reference in a file leads to what its destination is written as, which is a canonical path
and its own normal form; a query or a fragment after the reference changes nothing. -/
theorem resolve_eq_destination (source reference : String) (lookup : Lookup)
    (leads : LeadsToFile source reference) (clean : IsClean source reference lookup) :
    resolve source reference lookup =
        .ok (String.ofList (destination source.toList reference.toList lookup).render) ∧
      IsCanonical (destination source.toList reference.toList lookup).render ∧
      normalPath (destination source.toList reference.toList lookup).render =
        (destination source.toList reference.toList lookup).render ∧
      ∀ suffix : String, suffix.toList.head? = some '?' ∨ suffix.toList.head? = some '#' →
        resolve source (reference ++ suffix) lookup = resolve source reference lookup := by
  refine ⟨?_, PathStack.isCanonical_render _, ?_, ?_⟩
  · rw [leads.resolve, resolveFile_eq_normalPath, PathStack.normalPath_eq_render clean.joinPaths,
      destination_eq]
  · rw [destination_eq, PathStack.normalPath_render clean.joinPaths]
  · intro suffix starts
    rw [(leads.append starts).resolve, leads.resolve, resolveFile_eq_normalPath,
      resolveFile_eq_normalPath, String.toList_append, withoutQuery_append _ starts]

theorem resolve_eq_destination_climbing :
    let lookup : Lookup := { root := some "", subdirectory := "../../css//./" }
    LeadsToFile "./site/index.html" "/../a/./b.css?v=2#top" ∧
      IsClean "./site/index.html" "/../a/./b.css?v=2#top" lookup ∧
        resolve "./site/index.html" "/../a/./b.css?v=2#top" lookup = .ok "../a/b.css" ∧
          resolve "./site/index.html" ("/../a/./b.css?v=2#top" ++ "#x") lookup =
            resolve "./site/index.html" "/../a/./b.css?v=2#top" lookup := by
  intro lookup
  have leads : LeadsToFile "./site/index.html" "/../a/./b.css?v=2#top" := by decide
  have clean : IsClean "./site/index.html" "/../a/./b.css?v=2#top" lookup := by decide
  have resolves := resolve_eq_destination _ _ lookup leads clean
  refine ⟨leads, clean, ?_, resolves.2.2.2 "#x" (.inr (by decide))⟩
  rw [resolves.1]
  decide +kernel

end StyleSieve.Location
