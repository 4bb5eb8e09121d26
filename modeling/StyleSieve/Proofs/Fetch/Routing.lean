import StyleSieve.Fetch.Fetching
import StyleSieve.Proofs.Location.Addresses

/-!
# Requested and read locations

A reference is resolved by rules for addresses or by rules for files, and what comes out is
requested or read by its first letters alone.  The two decisions agree except where a path or a
scheme only looks like another one.
-/

namespace StyleSieve.Fetch

open Location

/-- Whether a document has an address: its location looks like one and names a scheme. -/
def HasAddress (source : String) : Prop :=
  isUrl source = true ∧ (ownScheme? source).isSome

instance (source : String) : Decidable (HasAddress source) :=
  inferInstanceAs (Decidable (_ ∧ _))

/-- Whether a reference leads to an address of the web: it looks like one, or names a host, or is
joined onto the address of its document. -/
def LeadsToWeb (source reference : String) : Prop :=
  isUrl reference = true ∨ "//".toList <+: reference.toList ∨
    isUrl source = true ∧ ∃ scheme ∈ ownScheme? source, IsJoined scheme reference

instance (source reference : String) : Decidable (LeadsToWeb source reference) :=
  inferInstanceAs (Decidable (_ ∨ _ ∨ _ ∧ ∃ scheme ∈ ownScheme? source, _))

theorem schemeOf_eq_ok {source : String} {scheme : List Char}
    (found : schemeOf source = .ok scheme) :
    (scheme = [] ∧ ¬HasAddress source) ∨
      (scheme ≠ [] ∧ isUrl source = true ∧ ownScheme? source = some scheme) := by
  rw [schemeOf] at found
  split at found
  · rename_i isWeb
    obtain ⟨url, parsed, rfl⟩ := map_eq_ok found
    have named := scheme_parse parsed
    cases own : ownScheme? source with
    | none =>
        refine .inl ⟨?_, fun address => ?_⟩
        · rw [named]
          exact congrArg (Option.getD · []) own
        · rw [HasAddress, own] at address
          cases address.2
    | some scheme =>
        have same : url.scheme = scheme := by
          rw [named]
          exact congrArg (Option.getD · []) own
        obtain ⟨read, taken, first⟩ := Option.map_eq_some_iff.1 own
        refine .inr ⟨?_, isWeb, congrArg some same.symm⟩
        rw [same, ← first]
        exact takeScheme?_ne_nil taken
  · rename_i noWeb
    cases found
    exact .inl ⟨rfl, fun address => noWeb address.1⟩

/-- The ways in which a reference is resolved: it is an address of the web itself, it takes its
scheme from the document, it is joined onto the address of the document, it is left as it is, or it
leads to a file. -/
inductive Resolved (source reference : String) (lookup : Lookup) : String → Prop where
  | web (isWeb : isUrl reference = true) : Resolved source reference lookup reference
  | host {location : String} (noWeb : isUrl reference = false)
      (isHost : "//".toList <+: reference.toList) (starts : isUrl location = true) :
      Resolved source reference lookup location
  | joined {scheme : List Char} {location : String} (noWeb : isUrl reference = false)
      (noHost : ¬"//".toList <+: reference.toList) (isWeb : isUrl source = true)
      (own : ownScheme? source = some scheme) (isJoined : IsJoined scheme reference)
      (starts : isUrl location = true) : Resolved source reference lookup location
  | kept {scheme : List Char} (noWeb : isUrl reference = false)
      (noHost : ¬"//".toList <+: reference.toList) (isWeb : isUrl source = true)
      (own : ownScheme? source = some scheme) (notJoined : ¬IsJoined scheme reference) :
      Resolved source reference lookup reference
  | file (noWeb : isUrl reference = false) (noHost : ¬"//".toList <+: reference.toList)
      (noAddress : ¬HasAddress source) :
      Resolved source reference lookup
        (String.ofList (resolveFile source.toList reference.toList lookup))

theorem resolved_of_resolve {source reference : String} {lookup : Lookup} {location : String}
    (resolves : resolve source reference lookup = .ok location) :
    Resolved source reference lookup location := by
  rw [resolve] at resolves
  -- an address is told first, then a host, and only then whether the source has a scheme
  split at resolves
  · rename_i isWeb
    cases resolves
    exact .web isWeb
  rename_i noWeb
  rw [Bool.not_eq_true] at noWeb
  obtain ⟨scheme, found, resolves⟩ := bind_eq_ok resolves
  have named := schemeOf_eq_ok found
  split at resolves
  · rename_i isHost
    have starts : "http".toList <+: if scheme = [] then "http".toList else scheme := by
      rcases named with ⟨empty, _⟩ | ⟨filled, isWeb, own⟩
      · rewrite [if_pos empty]
        exact List.prefix_rfl
      · rw [if_neg filled]
        exact prefix_ownScheme isWeb own
    have begun := (isUrl_ofList _).2 starts
    cases resolves
    refine .host noWeb (List.isPrefixOf_iff_prefix.1 isHost) (isUrl_iff.2 ?_)
    rw [String.toList_append, String.toList_append, List.append_assoc]
    exact (isUrl_iff.1 begun).trans (List.prefix_append _ _)
  rename_i host
  have noHost : ¬"//".toList <+: reference.toList := fun starts =>
    host (List.isPrefixOf_iff_prefix.2 starts)
  rcases named with ⟨rfl, noAddress⟩ | ⟨filled, isWeb, own⟩
  · rw [if_neg fun filled => filled rfl] at resolves
    cases resolves
    exact .file noWeb noHost noAddress
  · rw [if_pos filled] at resolves
    obtain ⟨joined, joins, resolves⟩ := bind_eq_ok resolves
    cases resolves
    rcases join_cases isWeb own joins with ⟨isJoined, starts⟩ | ⟨notJoined, same⟩
    · exact .joined noWeb noHost isWeb own isJoined ((isUrl_ofList joined).2 starts)
    · rw [same, String.ofList_toList]
      exact .kept noWeb noHost isWeb own notJoined

/-- From a document without an address a location looks like an address of the web just if the
stack that the reference leads to does. -/
theorem isUrl_resolveFile (source reference : String) (lookup : Lookup) :
    isUrl (String.ofList (resolveFile source.toList reference.toList lookup)) = true ↔
      (destination source.toList reference.toList lookup).LooksWeb := by
  rw [isUrl_ofList, resolveFile_eq_normalPath, destination_eq, prefix_normalPath_iff]

/-- Whether the text at a location is requested from the network. -/
def IsRequested (location : String) : Prop :=
  isUrl location = true ∧ ∀ (world : World) (client : Client),
    fetch world client location = client.request world location

/-- Whether the text at a location is read from a file. -/
def IsRead (location : String) : Prop :=
  isUrl location = false ∧ ∀ (world : World) (client : Client),
    fetch world client location = ⟨readFile world location, [.read location]⟩

theorem isRequested_iff {location : String} : IsRequested location ↔ isUrl location = true :=
  ⟨And.left, fun isWeb => ⟨isWeb, fun _ _ => if_pos isWeb⟩⟩

theorem isRead_iff {location : String} : IsRead location ↔ isUrl location = false :=
  ⟨And.left, fun noWeb => ⟨noWeb, fun _ _ => if_neg (Bool.eq_false_iff.1 noWeb)⟩⟩

/-- Whether a reference is left as it is by a document with an address, to which it cannot be
joined. -/
def IsKept (source reference : String) : Prop :=
  HasAddress source ∧ ¬LeadsToWeb source reference

/-- Whether a reference leads to a file whose path looks like an address of the web. -/
def IsDeceptive (source reference : String) (lookup : Lookup) : Prop :=
  ¬HasAddress source ∧ ¬LeadsToWeb source reference ∧
    (destination source.toList reference.toList lookup).LooksWeb

instance (source reference : String) : Decidable (IsKept source reference) :=
  inferInstanceAs (Decidable (_ ∧ _))

instance (source reference : String) (lookup : Lookup) :
    Decidable (IsDeceptive source reference lookup) :=
  inferInstanceAs (Decidable (_ ∧ _ ∧ _))

/-- The signs of an address of the web: the reference looks like one or names a host, or the
document has an address. -/
def AsksForWeb (source reference : String) : Prop :=
  isUrl reference = true ∨ "//".toList <+: reference.toList ∨ HasAddress source

instance (source reference : String) : Decidable (AsksForWeb source reference) :=
  inferInstanceAs (Decidable (_ ∨ _ ∨ _))

theorem LeadsToWeb.asks {source reference : String} (leads : LeadsToWeb source reference) :
    AsksForWeb source reference := by
  rcases leads with isWeb | isHost | ⟨isWeb, scheme, own, -⟩
  · exact .inl isWeb
  · exact .inr (.inl isHost)
  · exact .inr (.inr ⟨isWeb, Option.isSome_iff_exists.2 ⟨scheme, own⟩⟩)

/-- References that lead to an address of the web, those that are left as they are, and those that
lead to files by their look. -/
theorem isUrl_of_resolve {source reference : String} {lookup : Lookup} {location : String}
    (resolves : resolve source reference lookup = .ok location) :
    (LeadsToWeb source reference → isUrl location = true) ∧
      (IsKept source reference → location = reference ∧ isUrl location = false) ∧
      (¬HasAddress source → ¬LeadsToWeb source reference →
        (isUrl location = true ↔ IsDeceptive source reference lookup)) := by
  cases resolved_of_resolve resolves with
  | web isWeb =>
      exact ⟨fun _ => isWeb, fun kept => absurd (.inl isWeb) kept.2,
        fun _ away => absurd (.inl isWeb) away⟩
  | host noWeb isHost starts =>
      exact ⟨fun _ => starts, fun kept => absurd (.inr (.inl isHost)) kept.2,
        fun _ away => absurd (.inr (.inl isHost)) away⟩
  | joined noWeb noHost isWeb own isJoined starts =>
      have leads : LeadsToWeb source reference := .inr (.inr ⟨isWeb, _, own, isJoined⟩)
      exact ⟨fun _ => starts, fun kept => absurd leads kept.2, fun _ away => absurd leads away⟩
  | kept noWeb noHost isWeb own notJoined =>
      refine ⟨fun leads => ?_, fun _ => ⟨rfl, noWeb⟩, fun noAddress => ?_⟩
      · rcases leads with web | host | ⟨_, scheme, other, isJoined⟩
        · exact web
        · exact absurd host noHost
        · cases own.symm.trans other
          exact absurd isJoined notJoined
      · exact absurd ⟨isWeb, Option.isSome_iff_exists.2 ⟨_, own⟩⟩ noAddress
  | file noWeb noHost noAddress =>
      refine ⟨fun leads => ?_, fun kept => absurd kept.1 noAddress, fun _ away => ?_⟩
      · rcases leads with web | host | ⟨isWeb, scheme, own, _⟩
        · rw [noWeb] at web
          cases web
        · exact absurd host noHost
        · exact absurd ⟨isWeb, Option.isSome_iff_exists.2 ⟨scheme, own⟩⟩ noAddress
      · rw [isUrl_resolveFile]
        exact ⟨fun looks => ⟨noAddress, away, looks⟩, fun deceptive => deceptive.2.2⟩

/-- Where what a reference is resolved to is sought.  It is requested just if the reference leads to
an address of the web, or to a file whose path looks like one, and read from a file otherwise.  So
the signs of an address of the web decide, but for two kinds of references: those that a document
with an address leaves as they are, which are read, and those that lead to a file whose path looks
like an address, which are requested. -/
theorem resolve_routes {source reference : String} {lookup : Lookup} {location : String}
    (resolves : resolve source reference lookup = .ok location) :
    (IsRequested location ↔
        LeadsToWeb source reference ∨ IsDeceptive source reference lookup) ∧
      (IsRead location ↔
        ¬LeadsToWeb source reference ∧ ¬IsDeceptive source reference lookup) ∧
      (IsKept source reference → location = reference ∧ IsRead location) ∧
      ((isUrl location = true ↔ AsksForWeb source reference) ↔
        ¬IsKept source reference ∧ ¬IsDeceptive source reference lookup) := by
  obtain ⟨web, kept, file⟩ := isUrl_of_resolve resolves
  have routes : isUrl location = true ↔
      LeadsToWeb source reference ∨ IsDeceptive source reference lookup := by
    by_cases leads : LeadsToWeb source reference
    · exact iff_of_true (web leads) (.inl leads)
    by_cases address : HasAddress source
    · rw [(kept ⟨address, leads⟩).2]
      exact iff_of_false Bool.false_ne_true fun either =>
        either.elim leads fun deceptive => deceptive.1 address
    · rw [file address leads, or_iff_right leads]
  refine ⟨isRequested_iff.trans routes, ?_, fun isKept => ?_, ?_⟩
  · rw [isRead_iff, ← Bool.not_eq_true, routes, not_or]
  · exact ⟨(kept isKept).1, isRead_iff.2 (kept isKept).2⟩
  · rw [routes]
    by_cases leads : LeadsToWeb source reference
    · exact iff_of_true (iff_of_true (.inl leads) leads.asks)
        ⟨fun isKept => isKept.2 leads, fun deceptive => deceptive.2.1 leads⟩
    · -- what does not lead to the web asks for it just by the address of its document
      have asks : AsksForWeb source reference ↔ HasAddress source := by
        refine ⟨fun asked => ?_, fun address => .inr (.inr address)⟩
        rcases asked with isWeb | isHost | address
        · exact absurd (.inl isWeb) leads
        · exact absurd (.inr (.inl isHost)) leads
        · exact address
      rw [or_iff_right leads, asks, IsKept, and_iff_left leads]
      by_cases address : HasAddress source
      · refine iff_of_false (fun same => ?_) fun neither => neither.1 address
        exact (same.2 address).1 address
      · rw [iff_false_right address]
        exact (and_iff_right address).symm

/-- References that are joined, left as they are for another scheme or for one in capitals, and that
lead to a plain path and to a deceptive one. -/
theorem resolve_routes_each :
    (resolve "https://a.b/c/d.html" "../e.css?f" {} = .ok "https://a.b/e.css?f" ∧
        IsRequested "https://a.b/e.css?f") ∧
      (resolve "http://a.b/c/d.html" "data:text/css,p" {} = .ok "data:text/css,p" ∧
        IsRead "data:text/css,p") ∧
      (resolve "https://a.b/c.html" "HTTP://a.b/d.css" {} = .ok "HTTP://a.b/d.css" ∧
        IsRead "HTTP://a.b/d.css") ∧
      (resolve "../site/d.html" "/e.css" {} = .ok "../site/e.css" ∧ IsRead "../site/e.css") ∧
      (resolve "a.html" "./http.css" {} = .ok "http.css" ∧ IsRequested "http.css") := by
  have joined : resolve "https://a.b/c/d.html" "../e.css?f" {} = .ok "https://a.b/e.css?f" := by
    decide +kernel
  have foreign : resolve "http://a.b/c/d.html" "data:text/css,p" {} = .ok "data:text/css,p" := by
    decide +kernel
  have capital : resolve "https://a.b/c.html" "HTTP://a.b/d.css" {} = .ok "HTTP://a.b/d.css" := by
    decide +kernel
  have plain : resolve "../site/d.html" "/e.css" {} = .ok "../site/e.css" := by
    decide +kernel
  have deceptive : resolve "a.html" "./http.css" {} = .ok "http.css" := by
    decide +kernel
  refine ⟨⟨joined, ?_⟩, ⟨foreign, ?_⟩, ⟨capital, ?_⟩, ⟨plain, ?_⟩, ⟨deceptive, ?_⟩⟩
  · exact (resolve_routes joined).1.2 (.inl (by decide +kernel))
  · exact ((resolve_routes foreign).2.2.1 (by decide +kernel)).2
  · exact ((resolve_routes capital).2.2.1 (by decide +kernel)).2
  · exact (resolve_routes plain).2.1.2 (by decide +kernel)
  · exact (resolve_routes deceptive).1.2 (.inr (by decide +kernel))

/-- Whether what a reference is resolved to looks like an address of the web just if the signs of
one are there. -/
def FollowsDocument (source reference : String) (lookup : Lookup) : Prop :=
  ∀ location ∈ (resolve source reference lookup).toOption,
    (isUrl location = true ↔ AsksForWeb source reference)

instance (source reference : String) (lookup : Lookup) :
    Decidable (FollowsDocument source reference lookup) :=
  inferInstanceAs (Decidable (∀ location ∈ (resolve source reference lookup).toOption,
    (isUrl location = true ↔ AsksForWeb source reference)))

/-- References that are left as they are by a document with an address, and paths of files that
look like addresses. -/
theorem resolve_not_followsDocument :
    ¬FollowsDocument "http://a.b/c.html" "data:text/css,p" {} ∧
      ¬FollowsDocument "httpx://a.b/c.html" "d.css" {} ∧
        ¬FollowsDocument "https://a.b/c.html" "HTTP://a.b/d.css" {} ∧
          ¬FollowsDocument "a.html" "./http.css" {} ∧
            ¬FollowsDocument "a.html" "/p.css" { root := some "httpdocs" } ∧
              ¬FollowsDocument "httpdocs/a.html" "p.css" {} := by
  decide +kernel

end StyleSieve.Fetch
