import StyleSieve.Text.CodeRange

/-!
# Upper and lower case

The lower-case forms of letters, one letter at a time and for whole texts.
-/

namespace StyleSieve.Text

/-- Every `step`-th code point of a range, with the lower-case form of the
first; the others keep their distance to it. -/
structure CaseRun where
  range : CodeRange
  step : Nat
  lower : Nat
  deriving DecidableEq, Repr

namespace CaseRun

/-- The lower-case form of a member of a run. -/
def lower? (run : CaseRun) (code : Nat) : Option Nat :=
  if run.range.contains code && (code - run.range.first) % run.step == 0 then
    some (run.lower + (code - run.range.first))
  else none

/-- The run spelled as its ends, its step and the first lower-case form. -/
def ofSpelling (spelling : List Char) : CaseRun :=
  match (splitAtChar '-' spelling).map upperHexValue with
  | [first, last, step, lower] => ⟨⟨first, last⟩, step, lower⟩
  | _ => ⟨⟨0, 0⟩, 1, 0⟩

end CaseRun

/-- The letters outside ASCII that have a lower-case form of their own. -/
def lowerTable : List CaseRun :=
  List.flatMap (fun line => (splitAtChar ' ' line.toList).map CaseRun.ofSpelling)
    ["C0-D6-1-E0 D8-DE-1-F8 100-12E-2-101 130-130-1-69 132-136-2-133 139-147-2-13A 14A-176-2-14B",
     "178-178-1-FF 179-17D-2-17A 181-181-1-253 182-184-2-183 186-186-1-254 187-187-1-188",
     "189-18A-1-256 18B-18B-1-18C 18E-18E-1-1DD 18F-18F-1-259 190-190-1-25B 191-191-1-192",
     "193-193-1-260 194-194-1-263 196-196-1-269 197-197-1-268 198-198-1-199 19C-19C-1-26F",
     "19D-19D-1-272 19F-19F-1-275 1A0-1A4-2-1A1 1A6-1A6-1-280 1A7-1A7-1-1A8 1A9-1A9-1-283",
     "1AC-1AC-1-1AD 1AE-1AE-1-288 1AF-1AF-1-1B0 1B1-1B2-1-28A 1B3-1B5-2-1B4 1B7-1B7-1-292",
     "1B8-1B8-1-1B9 1BC-1BC-1-1BD 1C4-1C4-1-1C6 1C5-1C5-1-1C6 1C7-1C7-1-1C9 1C8-1C8-1-1C9",
     "1CA-1CA-1-1CC 1CB-1DB-2-1CC 1DE-1EE-2-1DF 1F1-1F1-1-1F3 1F2-1F4-2-1F3 1F6-1F6-1-195",
     "1F7-1F7-1-1BF 1F8-21E-2-1F9 220-220-1-19E 222-232-2-223 23A-23A-1-2C65 23B-23B-1-23C",
     "23D-23D-1-19A 23E-23E-1-2C66 241-241-1-242 243-243-1-180 244-244-1-289 245-245-1-28C",
     "246-24E-2-247 370-372-2-371 376-376-1-377 37F-37F-1-3F3 386-386-1-3AC 388-38A-1-3AD",
     "38C-38C-1-3CC 38E-38F-1-3CD 391-3A1-1-3B1 3A3-3AB-1-3C3 3CF-3CF-1-3D7 3D8-3EE-2-3D9",
     "3F4-3F4-1-3B8 3F7-3F7-1-3F8 3F9-3F9-1-3F2 3FA-3FA-1-3FB 3FD-3FF-1-37B 400-40F-1-450",
     "410-42F-1-430 460-480-2-461 48A-4BE-2-48B 4C0-4C0-1-4CF 4C1-4CD-2-4C2 4D0-52E-2-4D1",
     "531-556-1-561 10A0-10C5-1-2D00 10C7-10C7-1-2D27 10CD-10CD-1-2D2D 13A0-13EF-1-AB70",
     "13F0-13F5-1-13F8 1C90-1CBA-1-10D0 1CBD-1CBF-1-10FD 1E00-1E94-2-1E01 1E9E-1E9E-1-DF",
     "1EA0-1EFE-2-1EA1 1F08-1F0F-1-1F00 1F18-1F1D-1-1F10 1F28-1F2F-1-1F20 1F38-1F3F-1-1F30",
     "1F48-1F4D-1-1F40 1F59-1F5F-2-1F51 1F68-1F6F-1-1F60 1F88-1F8F-1-1F80 1F98-1F9F-1-1F90",
     "1FA8-1FAF-1-1FA0 1FB8-1FB9-1-1FB0 1FBA-1FBB-1-1F70 1FBC-1FBC-1-1FB3 1FC8-1FCB-1-1F72",
     "1FCC-1FCC-1-1FC3 1FD8-1FD9-1-1FD0 1FDA-1FDB-1-1F76 1FE8-1FE9-1-1FE0 1FEA-1FEB-1-1F7A",
     "1FEC-1FEC-1-1FE5 1FF8-1FF9-1-1F78 1FFA-1FFB-1-1F7C 1FFC-1FFC-1-1FF3 2126-2126-1-3C9",
     "212A-212A-1-6B 212B-212B-1-E5 2132-2132-1-214E 2160-216F-1-2170 2183-2183-1-2184",
     "24B6-24CF-1-24D0 2C00-2C2F-1-2C30 2C60-2C60-1-2C61 2C62-2C62-1-26B 2C63-2C63-1-1D7D",
     "2C64-2C64-1-27D 2C67-2C6B-2-2C68 2C6D-2C6D-1-251 2C6E-2C6E-1-271 2C6F-2C6F-1-250",
     "2C70-2C70-1-252 2C72-2C72-1-2C73 2C75-2C75-1-2C76 2C7E-2C7F-1-23F 2C80-2CE2-2-2C81",
     "2CEB-2CED-2-2CEC 2CF2-2CF2-1-2CF3 A640-A66C-2-A641 A680-A69A-2-A681 A722-A72E-2-A723",
     "A732-A76E-2-A733 A779-A77B-2-A77A A77D-A77D-1-1D79 A77E-A786-2-A77F A78B-A78B-1-A78C",
     "A78D-A78D-1-265 A790-A792-2-A791 A796-A7A8-2-A797 A7AA-A7AA-1-266 A7AB-A7AB-1-25C",
     "A7AC-A7AC-1-261 A7AD-A7AD-1-26C A7AE-A7AE-1-26A A7B0-A7B0-1-29E A7B1-A7B1-1-287",
     "A7B2-A7B2-1-29D A7B3-A7B3-1-AB53 A7B4-A7C2-2-A7B5 A7C4-A7C4-1-A794 A7C5-A7C5-1-282",
     "A7C6-A7C6-1-1D8E A7C7-A7C9-2-A7C8 A7D0-A7D0-1-A7D1 A7D6-A7D8-2-A7D7 A7F5-A7F5-1-A7F6",
     "FF21-FF3A-1-FF41 10400-10427-1-10428 104B0-104D3-1-104D8 10570-1057A-1-10597",
     "1057C-1058A-1-105A3 1058C-10592-1-105B3 10594-10595-1-105BB 10C80-10CB2-1-10CC0",
     "118A0-118BF-1-118C0 16E40-16E5F-1-16E60 1E900-1E921-1-1E922"]

/-- The letters outside ASCII that have a form in the other case. -/
def casedTable : List CodeRange :=
  CodeRange.table
    ["B5 C0-D6 D8-F6 F8-137 139-18C 18E-19A 19C-1A9 1AC-1B9 1BC-1BD 1BF 1C4-220 222-233 23A-254",
     "256-257 259 25B-25C 260-261 263 265-266 268-26C 26F 271-272 275 27D 280 282-283 287-28C",
     "292 29D-29E 345 370-373 376-377 37B-37D 37F 386 388-38A 38C 38E-3A1 3A3-3D1 3D5-3F5",
     "3F7-3FB 3FD-481 48A-52F 531-556 561-587 10A0-10C5 10C7 10CD 10D0-10FA 10FD-10FF 13A0-13F5",
     "13F8-13FD 1C80-1C88 1C90-1CBA 1CBD-1CBF 1D79 1D7D 1D8E 1E00-1E9B 1E9E 1EA0-1F15 1F18-1F1D",
     "1F20-1F45 1F48-1F4D 1F50-1F57 1F59 1F5B 1F5D 1F5F-1F7D 1F80-1FB4 1FB6-1FBC 1FBE 1FC2-1FC4",
     "1FC6-1FCC 1FD0-1FD3 1FD6-1FDB 1FE0-1FEC 1FF2-1FF4 1FF6-1FFC 2126 212A-212B 2132 214E",
     "2160-217F 2183-2184 24B6-24E9 2C00-2C70 2C72-2C73 2C75-2C76 2C7E-2CE3 2CEB-2CEE 2CF2-2CF3",
     "2D00-2D25 2D27 2D2D A640-A66D A680-A69B A722-A72F A732-A76F A779-A787 A78B-A78D A790-A794",
     "A796-A7AE A7B0-A7CA A7D0-A7D1 A7D6-A7D9 A7F5-A7F6 AB53 AB70-ABBF FB00-FB06 FB13-FB17",
     "FF21-FF3A FF41-FF5A 10400-1044F 104B0-104D3 104D8-104FB 10570-1057A 1057C-1058A",
     "1058C-10592 10594-10595 10597-105A1 105A3-105B1 105B3-105B9 105BB-105BC 10C80-10CB2",
     "10CC0-10CF2 118A0-118DF 16E40-16E7F 1E900-1E943"]

/-- The lower-case form of a letter, and any other character itself. -/
def toLower (c : Char) : Char :=
  if c.toNat < 0x80 then c.toLower
  else
    match lowerTable.findSome? (·.lower? c.toNat) with
    | some code => Char.ofNat code
    | none => c

/-- Whether a character is a letter with a form in the other case. -/
def isCased (c : Char) : Bool :=
  if c.toNat < 0x80 then c.isAlpha else inTable casedTable c.toNat

/-- Letters that are forms of one letter although their lower-case forms
differ. -/
def letterVariants : List (List Nat) :=
  List.flatMap
    (fun line =>
      (splitAtChar ' ' line.toList).map fun spelling =>
        (splitAtChar '-' spelling).map upperHexValue)
    ["69-131 73-17F B5-3BC 345-3B9-1FBE 390-1FD3 3B0-1FE3 3B2-3D0 3B5-3F5 3B8-3D1 3BA-3F0",
     "3C0-3D6 3C1-3F1 3C2-3C3 3C6-3D5 432-1C80 434-1C81 43E-1C82 441-1C83 442-1C84-1C85 44A-1C86",
     "463-1C87 1C88-A64B 1E61-1E9B FB05-FB06"]

/-- The code points of the forms of a lower-case letter. -/
def variantsOf (c : Char) : List Nat :=
  (letterVariants.find? (·.contains c.toNat)).getD [c.toNat]

/-- Whether two characters are forms of one letter. -/
def sameLetter (c d : Char) : Bool :=
  (variantsOf (toLower c)).contains (toLower d).toNat

/-- The code points whose lower-case form is a given code point. -/
def withLower (lower : Nat) : List Nat :=
  (if lower < 0x80 then [lower, (Char.ofNat lower).toUpper.toNat]
    else if toLower (Char.ofNat lower) = Char.ofNat lower then [lower] else []) ++
  lowerTable.filterMap fun run =>
    if run.lower ≤ lower then
      let code := run.range.first + (lower - run.lower)
      if run.lower? code = some lower then some code else none
    else none

/-- The code points of all forms of the letter that a character is. -/
def formsOf (c : Char) : List Nat :=
  (variantsOf (toLower c)).flatMap withLower

/-- Characters that do not count when the neighbours of a letter are sought:
marks over letters and signs that stand inside words. -/
def isCaseIgnorable (c : Char) : Bool :=
  c == '\'' || c == '.' || c == ':' || c == '^' || c == '\x60' || c == '\xa8' || c == '\xad' ||
    c == '\xaf' || c == '\xb4' || c == '\xb7' || c == '\xb8' ||
    (0x2B0 ≤ c.toNat && c.toNat ≤ 0x36F) || c == '\u0387' ||
    (0x483 ≤ c.toNat && c.toNat ≤ 0x489) || (0x591 ≤ c.toNat && c.toNat ≤ 0x5BD) ||
    (0x64B ≤ c.toNat && c.toNat ≤ 0x65F) || (0x200B ≤ c.toNat && c.toNat ≤ 0x200F) ||
    c == '\u2018' || c == '\u2019' || c == '\u2024' || c == '\u2027' ||
    (0x20D0 ≤ c.toNat && c.toNat ≤ 0x20F0) || (0xFE00 ≤ c.toNat && c.toNat ≤ 0xFE0F)

/-- Whether the first character that counts is a letter with case. -/
def startsCased (text : List Char) : Bool :=
  match text.dropWhile isCaseIgnorable with
  | c :: _ => isCased c
  | [] => false

/-- The lower-case form of a text whose characters come after those of `before`,
last one first.  A sigma that ends a word has a form of its own, and a dotted
capital keeps its dot as a mark. -/
def lowercaseAfter (before : List Char) : List Char → List Char
  | [] => []
  | c :: rest =>
      (if c == '\u03a3' then
        [if startsCased before && !startsCased rest then '\u03c2' else '\u03c3']
      else if c == '\u0130' then ['i', '\u0307']
      else [toLower c]) ++ lowercaseAfter (c :: before) rest

/-- The lower-case form of a text. -/
def lowercase (text : List Char) : List Char :=
  lowercaseAfter [] text

end StyleSieve.Text
