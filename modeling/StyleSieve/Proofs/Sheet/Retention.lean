import StyleSieve.Proofs.Css.Units
import StyleSieve.Proofs.Sheet.Legibility
import StyleSieve.Proofs.Sheet.Origins
import StyleSieve.Proofs.Sheet.Pruning

/-!
# At-rules that are kept

An at-rule that encloses no rules is kept as the text that is written for it.  The text is read
alone as one at-rule again, with the same keyword and with the same tokens, where what is written
keeps every token, units included, each token ends where the next one begins, and the keyword
ends where the prelude begins.  Nothing else is asked: the rule may stand at any depth, its
blocks may be closed by the end of the source, and comments may have stood anywhere in it.
-/

namespace StyleSieve

open Css Css.Component

/-! ## The other at-rules of a sheet -/

/-- The text that an at-rule is kept as. -/
def Css.AtRule.text (rule : AtRule) : String :=
  String.ofList (Text.trim rule.write)

theorem toList_text (rule : AtRule) : rule.text.toList = rule.write := by
  rw [AtRule.text, String.toList_ofList, trim_write]

mutual

/-- The at-rules in a statement that enclose no rules. -/
def Statement.others : Statement → List AtRule
  | .style .. => []
  | .media _ inner => Statement.othersIn inner
  | .atRule rule => [rule]

/-- The at-rules in some statements, at any depth, that enclose no rules. -/
def Statement.othersIn : List Statement → List AtRule
  | [] => []
  | statement :: rest => statement.others ++ Statement.othersIn rest

end

/-- The at-rules of a source text, at any depth of its media rules, that enclose no rules. -/
def otherRules (source : String) : List AtRule :=
  match statementsFrom .outermost [] (significantComponents source.toList) with
  | .ok statements => Statement.othersIn statements
  | .error _ => []

mutual

/-- The verbatim rules of a sheet are the texts of its other at-rules, in order. -/
theorem verbatims_toRule (conditions : List String) (statement : Statement) :
    (statement.toRule.verbatims conditions).map Prod.snd = statement.others.map AtRule.text := by
  cases statement with
  | style prelude content => rfl
  | media prelude inner => exact verbatimsIn_rulesOf _ inner
  | atRule rule => rfl

theorem verbatimsIn_rulesOf (conditions : List String) (statements : List Statement) :
    (Rule.verbatimsIn conditions (rulesOf statements)).map Prod.snd =
      (Statement.othersIn statements).map AtRule.text := by
  cases statements with
  | nil => rfl
  | cons statement rest =>
      rw [rulesOf, Rule.verbatimsIn, Statement.othersIn, List.map_append, List.map_append,
        verbatims_toRule conditions statement, verbatimsIn_rulesOf conditions rest]

end

mutual

theorem others_sound {level : Level} (statement : Statement) (sound : statement.Sound level) :
    ∀ rule ∈ statement.others, encloses rule = false ∧ ∃ level, rule.Sound level := by
  cases statement with
  | style prelude content => exact fun rule member => by cases member
  | media prelude inner =>
      rw [Statement.Sound] at sound
      exact othersIn_sound inner sound.2
  | atRule rule =>
      rw [Statement.Sound] at sound
      intro other member
      rw [List.mem_singleton.1 member]
      exact ⟨sound.1, level, sound.2⟩

theorem othersIn_sound {level : Level} (statements : List Statement)
    (sound : Statement.SoundAll level statements) :
    ∀ rule ∈ Statement.othersIn statements, encloses rule = false ∧ ∃ level, rule.Sound level := by
  cases statements with
  | nil => exact fun rule member => by cases member
  | cons statement rest =>
      rw [Statement.SoundAll] at sound
      exact List.forall_mem_append.2 ⟨others_sound statement sound.1, othersIn_sound rest sound.2⟩

end

theorem otherRules_sound {source : String} {rule : AtRule} (member : rule ∈ otherRules source) :
    encloses rule = false ∧ ∃ level, rule.Sound level := by
  rw [otherRules] at member
  cases read : statementsFrom .outermost [] (significantComponents source.toList) with
  | error offset =>
      rw [read] at member
      cases member
  | ok statements =>
      rw [read] at member
      have sound := statementsFrom_sound .outermost [] _ (Level.Reads.nil _)
        (admits_outermost (significantComponents_sound source.toList)) read
      exact othersIn_sound statements sound rule member

/-! ## Reading a kept text alone -/

/-- Two at-rules have the same keyword and the same tokens. -/
structure Css.AtRule.Agrees (rule other : AtRule) : Prop where
  name : other.name = rule.name
  prelude : tokensAll other.prelude = tokensAll rule.prelude
  body : other.body.map tokensAll = rule.body.map tokensAll

/-- The text of an at-rule, read alone, is one at-rule that agrees with it. -/
def Css.AtRule.IsRetained (rule : AtRule) : Prop :=
  ∃ other, statementsFrom .outermost [] (significantComponents rule.text.toList) =
    .ok [.atRule other] ∧ rule.Agrees other

instance (rule other : AtRule) : Decidable (rule.Agrees other) :=
  decidable_of_iff (other.name = rule.name ∧ tokensAll other.prelude = tokensAll rule.prelude ∧
      other.body.map tokensAll = rule.body.map tokensAll)
    ⟨fun ⟨name, prelude, body⟩ => ⟨name, prelude, body⟩,
      fun agrees => ⟨agrees.name, agrees.prelude, agrees.body⟩⟩

instance (rule : AtRule) : Decidable rule.IsRetained :=
  match read : statementsFrom .outermost [] (significantComponents rule.text.toList) with
  | .ok [.atRule other] =>
      decidable_of_iff (rule.Agrees other)
        ⟨fun agrees => ⟨other, read, agrees⟩, fun ⟨found, isFound, agrees⟩ => by
          cases read.symm.trans isFound
          exact agrees⟩
  | .ok [] | .ok (.style .. :: _) | .ok (.media .. :: _) | .ok (.atRule _ :: _ :: _)
  | .error _ => isFalse fun ⟨found, isFound, _⟩ => by cases read.symm.trans isFound

/-- Whether all units in an at-rule are read back as they are. -/
def Css.AtRule.keepsUnits (rule : AtRule) : Bool :=
  keepUnits rule.prelude && rule.body.all keepUnits

theorem Css.AtRule.Sound.soundAll {level : Level} {rule : AtRule} (sound : rule.Sound level) :
    SoundAll rule.prelude ∧ ∀ content ∈ rule.body, SoundAll content :=
  ⟨soundAll_of_admits fun component member => (sound.2.1 component member).1,
    fun content isBody => soundAll_of_admits (sound.2.2 content isBody)⟩

/-- What a list in a block can hold, the outermost list can hold. -/
theorem Css.AtRule.Sound.outermost {level : Level} {rule : AtRule} (sound : rule.Sound level) :
    rule.Sound .outermost := by
  obtain ⟨soundName, admits, inside⟩ := sound
  refine ⟨soundName, ?_, inside⟩
  intro component member
  obtain ⟨⟨isSound, -⟩, flat⟩ := admits component member
  exact ⟨⟨isSound, nofun⟩, flat⟩

theorem settledRule_of_keepsUnits {level : Level} {rule : AtRule} (sound : rule.Sound level)
    (keeps : rule.keepsUnits = true) :
    settledRule rule = ⟨rule.name, tokensAll rule.prelude, rule.body.map tokensAll⟩ := by
  obtain ⟨soundPrelude, soundBody⟩ := sound.soundAll
  obtain ⟨name, prelude, body⟩ := rule
  rw [AtRule.keepsUnits, Bool.and_eq_true] at keeps
  rw [settledRule, settledAll_eq_tokensAll prelude soundPrelude keeps.1]
  cases body with
  | none => rfl
  | some content =>
      rw [Option.map_some, settledAll_eq_tokensAll content (soundBody content rfl) keeps.2]
      rfl

/-- At-rules that settle to the same agree, if the units in them are kept. -/
theorem agrees_of_settledRule {level otherLevel : Level} {rule other : AtRule}
    (sound : rule.Sound level) (soundOther : other.Sound otherLevel)
    (keeps : rule.keepsUnits = true) (keepsOther : other.keepsUnits = true)
    (same : settledRule other = settledRule rule) : rule.Agrees other := by
  rw [settledRule_of_keepsUnits sound keeps, settledRule_of_keepsUnits soundOther keepsOther,
    AtRule.mk.injEq] at same
  exact ⟨same.1, same.2.1, same.2.2⟩

theorem clean_write_atRule {level : Level} {rule : AtRule} (sound : rule.Sound level) :
    Clean rule.write := by
  obtain ⟨soundPrelude, soundBody⟩ := sound.soundAll
  obtain ⟨name, prelude, body⟩ := rule
  have keyword : Clean ('@' :: writeIdent name) := Token.clean_write sound.1 (fun _ => nofun)
  have cleanPrelude : Clean (Css.write prelude) := clean_writeFrom prelude soundPrelude .other
  cases body with
  | none =>
      have semicolon : Clean [';'] := clean_singleton (by decide)
      have whole := keyword.append (cleanPrelude.append semicolon)
      simpa [AtRule.write] using whole
  | some content =>
      have cleanContent : Clean (Css.write content) :=
        clean_writeFrom content (soundBody content rfl) .other
      have block : Clean ('\x7b' :: (Css.write content ++ ['\x7d'])) :=
        clean_cons (by decide) (cleanContent.append (clean_singleton (c := '\x7d') (by decide)))
      have whole := keyword.append (cleanPrelude.append block)
      simpa [AtRule.write] using whole

/-- The units in the text of a legible at-rule are kept. -/
theorem keepsUnits_write_atRule {level : Level} {rule : AtRule} (sound : rule.Sound level)
    (legible : rule.isLegible = true) : KeepsUnits rule.write := by
  obtain ⟨soundPrelude, soundBody⟩ := sound.soundAll
  obtain ⟨name, prelude, body⟩ := rule
  -- both kinds of at-rule start alike, and go on with the seam after the prelude
  have keyword : ∀ {seam : Char} {after : List Char}, seam ∈ seams →
      endsName (Css.write prelude ++ [seam]) = true → areLegible seam prelude = true →
      KeepsUnits (seam :: after) →
      KeepsUnits ('@' :: (writeIdent name ++ (Css.write prelude ++ seam :: after))) := by
    intro seam after isSeam ends isLegible keeps
    have endsHere := Token.endsBefore_seam isSeam (Css.write prelude) after (.atKeyword name)
    exact .of_scan (scan_atKeyword sound.1.1 (endsHere.trans ends)) rfl
      (keepsUnits_write soundPrelude isSeam isLegible keeps)
  cases body with
  | none =>
      rw [AtRule.isLegible, Bool.and_eq_true] at legible
      have semicolon : KeepsUnits [';'] :=
        .of_scan (show scan ';' [] = ([.token (.delim [';'])], []) by decide) rfl .nil
      have written : AtRule.write ⟨name, prelude, none⟩ =
          '@' :: (writeIdent name ++ (Css.write prelude ++ [';'])) := by
        simp [AtRule.write]
      rw [written]
      exact keyword (by decide) legible.1 legible.2 semicolon
  | some content =>
      rw [AtRule.isLegible, Bool.and_eq_true, Bool.and_eq_true] at legible
      obtain ⟨⟨ends, legiblePrelude⟩, legibleContent⟩ := legible
      have closer : KeepsUnits ['\x7d'] := .of_scan (scan_closer (by decide) []) rfl .nil
      have inside : KeepsUnits (Css.write content ++ ['\x7d']) :=
        keepsUnits_write (soundBody content rfl) (by decide) legibleContent closer
      obtain ⟨c, more, text, scanned⟩ : ∃ c more,
          Opening.curly.write ++ (Css.write content ++ ['\x7d']) = c :: more ∧
            scan c more = ([.opening .curly], Css.write content ++ ['\x7d']) :=
        scan_opening (show Opening.Sound .curly from trivial) rfl
      have written : AtRule.write ⟨name, prelude, some content⟩ = '@' :: (writeIdent name ++
          (Css.write prelude ++ '\x7b' :: (Css.write content ++ ['\x7d']))) := by
        simp [AtRule.write]
      have block : KeepsUnits ('\x7b' :: (Css.write content ++ ['\x7d'])) := by
        change '\x7b' :: (Css.write content ++ ['\x7d']) = c :: more at text
        rw [text]
        exact .of_scan scanned rfl inside
      rw [written]
      exact keyword (by decide) ends legiblePrelude block

/-- An at-rule that a text is read as has the units of the text. -/
theorem keepsUnits_of_statement {components : List Component} {rule : AtRule}
    (read : statementsFrom .outermost [] components = .ok [.atRule rule])
    (keeps : keepUnits components = true) : rule.keepsUnits = true := by
  obtain ⟨left, used, stop, right, body, parts, -, isStop, found⟩ := exists_statement read
  obtain ⟨offset, rfl, rfl⟩ := exists_keyword found
  rw [List.nil_append] at parts
  rw [parts, keepUnits_append, keepUnits_append, keepUnits_append, keepUnits_cons] at keeps
  simp only [Bool.and_eq_true] at keeps
  obtain ⟨-, ⟨-, keepsPrelude⟩, keepsStop, -⟩ := keeps
  rw [AtRule.keepsUnits, keepsPrelude, Bool.true_and]
  cases isBody : rule.body with
  | none => rfl
  | some content =>
      rw [isBody] at isStop
      cases isStop with
      | block curly =>
          obtain ⟨place, rfl⟩ := eq_curly curly
          rw [keepUnits_cons, Bool.and_eq_true, nodes, List.all_cons, Bool.and_eq_true] at keepsStop
          exact keepsStop.1.2

theorem settledStatements_atRule {statements : List Statement} {rule : AtRule}
    (same : settledStatements statements = [.atRule rule]) :
    ∃ other, statements = [.atRule other] ∧ settledRule other = rule := by
  match statements with
  | [] => cases same
  | [statement] =>
      cases statement with
      | atRule other =>
          cases same
          exact ⟨other, rfl, rfl⟩
      | _ => cases same
  | _ :: _ :: _ => cases (List.cons.inj same).2

/-- The text of a legible at-rule is read alone as one at-rule that settles to the same. -/
theorem exists_settledRule {level : Level} {rule : AtRule} (sound : rule.Sound level)
    (other : encloses rule = false) (legible : rule.isLegible = true) :
    ∃ other, statementsFrom .outermost [] (significantComponents rule.write) =
      .ok [.atRule other] ∧ settledRule other = settledRule rule := by
  obtain ⟨components, rfl, reads⟩ := spells_atRule sound legible []
  have soundComponents := soundAll_of_admits (ruleComponents_admits sound)
  simp only [List.append_nil, normalizeNewlines, plain_nil] at reads
  have settled : settledAll (significantComponents rule.write) = settledAll (ruleComponents rule) := by
    rw [settledAll_significantComponents, reads, nest_spreadAll_nil (settledAll_sound _ soundComponents)]
  have alone := statementsFrom_ruleComponents sound.outermost other []
  rw [List.append_nil, statementsFrom] at alone
  have same := statementsFrom_settled .outermost [] (significantComponents rule.write) trivial
    (significantComponents_sound rule.write)
  rw [settled, statementsFrom_settled .outermost [] _ trivial soundComponents, alone] at same
  cases read : statementsFrom .outermost [] (significantComponents rule.write) with
  | error offset =>
      rw [read] at same
      cases same
  | ok statements =>
      rw [read] at same
      obtain ⟨found, rfl, agrees⟩ := settledStatements_atRule (Option.some.inj same).symm
      exact ⟨found, rfl, agrees⟩

/-- A legible at-rule whose units are kept is retained. -/
theorem Css.AtRule.Sound.isRetained {level : Level} {rule : AtRule} (sound : rule.Sound level)
    (other : encloses rule = false) (legible : rule.isLegible = true)
    (keeps : rule.keepsUnits = true) : rule.IsRetained := by
  obtain ⟨found, read, same⟩ := exists_settledRule sound other legible
  have keepsText := (keepsUnits_write_atRule sound legible).components (clean_write_atRule sound)
  have soundFound := statementsFrom_sound .outermost [] _ (Level.Reads.nil _)
    (admits_outermost (significantComponents_sound rule.write)) read
  refine ⟨found, by rw [toList_text, read], ?_⟩
  exact agrees_of_settledRule sound soundFound.1.2 keeps (keepsUnits_of_statement read keepsText) same

/-! ## Sheets -/

/-- What a sheet that is read keeps of the other at-rules of its source, at any depth, are their
texts in order.  Each of these is read alone as one at-rule with the keyword and the tokens of
its own at-rule, if that is legible and its units are kept. -/
theorem parse_retains_others (source : String) (sheet : Stylesheet)
    (parsed : Stylesheet.parse source = .ok sheet) :
    (Rule.verbatimsIn [] sheet.rules).map Prod.snd = (otherRules source).map AtRule.text ∧
      ∀ rule ∈ otherRules source, rule.isLegible = true → rule.keepsUnits = true →
        rule.IsRetained := by
  constructor
  · rw [Stylesheet.parse] at parsed
    rw [otherRules]
    cases read : statementsFrom .outermost [] (significantComponents source.toList) with
    | error offset =>
        rw [read] at parsed
        cases parsed
    | ok statements =>
        rw [read] at parsed
        cases parsed
        exact verbatimsIn_rulesOf [] statements
  · intro rule member legible keeps
    obtain ⟨other, level, sound⟩ := otherRules_sound member
    exact sound.isRetained other legible keeps

/-- An at-rule in two media rules with comments between its tokens, one without a body, and one
with an escaped keyword whose blocks the end of the source closes. -/
theorem parse_retains_others_nested :
    let source := "@media a\x7b@media b\x7b@supports/**/(c:d)/**/or e\x7bf/**/g\x7bh:1e\x7d\x7d\x7d\x7d @import 'i' j;@\\31 k\x7bl(m"
    let sheet : Stylesheet := ⟨[.media "a" [.media "b"
      [.verbatim "@supports(c:d)or e\x7bf/**/g\x7bh:1\\65 \x7d\x7d"]],
      .verbatim "@import \"i\" j;", .verbatim "@\\31 k\x7bl(m)\x7d"]⟩
    Stylesheet.parse source = .ok sheet ∧ (otherRules source).length = 3 ∧
      ∀ rule ∈ otherRules source, rule.IsRetained := by
  intro source sheet
  have parsed : Stylesheet.parse source = .ok sheet := by decide +kernel
  have legible : ∀ rule ∈ otherRules source, rule.isLegible = true ∧ rule.keepsUnits = true := by
    decide +kernel
  refine ⟨parsed, by decide +kernel, ?_⟩
  intro rule member
  exact (parse_retains_others source sheet parsed).2 rule member (legible rule member).1
    (legible rule member).2

/-- Whether a source text is read and the text of each of its other at-rules is read alone as
that at-rule. -/
def RetainsOthers (source : String) : Prop :=
  (Stylesheet.parse source).toOption.isSome = true → ∀ rule ∈ otherRules source, rule.IsRetained

instance (source : String) : Decidable (RetainsOthers source) :=
  inferInstanceAs (Decidable (_ → _))

/-- Sources with an at-rule whose text is not read as the at-rule: a keyword that the comment
after it kept apart from a word, a string without an end, a unit that reads as an exponent once
its escape is resolved, an address with a control character, a bad string, which is written with
a line break of its own, an exponent mark for a unit, and tokens that the comment between them
kept apart: a range of code points, a percentage, and the opening of a comment. -/
theorem illegible_not_retained :
    ¬RetainsOthers "@medi/**/a b \x7bc \x7bd: e\x7d\x7d" ∧ ¬RetainsOthers "@a \"b" ∧
      ¬RetainsOthers "@a 1\\65 3e;" ∧ ¬RetainsOthers "@a url(b\\1 c);" ∧
        ¬RetainsOthers "@a \"b\n;" ∧ ¬RetainsOthers "@a 1E;" ∧ ¬RetainsOthers "@a u/**/+b;" ∧
          ¬RetainsOthers "@a 1/**/%;" ∧ ¬RetainsOthers "@a //**/*= b;" := by
  decide +kernel

end StyleSieve
