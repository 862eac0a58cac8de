/-
Properties of characters by name, as patterns name them.

A name is looked up without regard to case, blanks, hyphens, underscores and a leading `is`.
-/
import PipeQuery.Unicode.Age
import PipeQuery.Unicode.Segmentation

namespace PipeQuery

namespace Property

/-- Properties that a character has or has not, by their names. -/
def binary : List (List String × CharSet) :=
  [ (["alpha", "alphabetic"], alphabetic),
    (["lower", "lowercase"], lowercase),
    (["upper", "uppercase"], uppercase),
    (["cased"], cased),
    (["ci", "caseignorable"], caseIgnorable),
    (["math"], math),
    (["ids", "idstart"], nameStart),
    (["idc", "idcontinue"], nameContinue),
    (["xids", "xidstart"], nameStart.diff unstableNameStart),
    (["xidc", "xidcontinue"], nameContinue.diff unstableNameContinue),
    (["idcompatmathstart"], compatMathStart),
    (["idcompatmathcontinue"], compatMathContinue),
    (["grext", "graphemeextend"], graphemeExtend),
    (["grbase", "graphemebase"], graphemeBase),
    (["grlink", "graphemelink"], graphemeLink),
    (["oalpha", "otheralphabetic"], otherAlphabetic),
    (["olower", "otherlowercase"], otherLowercase),
    (["oupper", "otheruppercase"], otherUppercase),
    (["omath", "othermath"], otherMath),
    (["oids", "otheridstart"], otherNameStart),
    (["oidc", "otheridcontinue"], otherNameContinue),
    (["ogrext", "othergraphemeextend"], otherExtend),
    (["odi", "otherdefaultignorablecodepoint"], otherDefaultIgnorable),
    (["wspace", "space", "whitespace"], whiteSpace),
    (["ahex", "asciihexdigit"], asciiHexDigit),
    (["bidic", "bidicontrol"], bidiControl),
    (["bidim", "bidimirrored"], bidiMirrored),
    (["cwcf", "changeswhencasefolded"], changesWhenCasefolded),
    (["cwcm", "changeswhencasemapped"], changesWhenCasemapped),
    (["cwl", "changeswhenlowercased"], changesWhenLowercased),
    (["cwt", "changeswhentitlecased"], changesWhenTitlecased),
    (["cwu", "changeswhenuppercased"], changesWhenUppercased),
    (["dash"], dash),
    (["di", "defaultignorablecodepoint"], defaultIgnorable),
    (["dep", "deprecated"], deprecatedCharacter),
    (["dia", "diacritic"], diacritic),
    (["emoji"], emoji),
    (["ecomp", "emojicomponent"], emojiComponent),
    (["emod", "emojimodifier"], emojiModifier),
    (["ebase", "emojimodifierbase"], emojiModifierBase),
    (["epres", "emojipresentation"], emojiPresentation),
    (["extpict", "extendedpictographic"], extendedPictographic),
    (["ext", "extender"], extender),
    (["hex", "hexdigit"], hexDigit),
    (["hyphen"], hyphen),
    (["idsb", "idsbinaryoperator"], idsBinaryOperator),
    (["idst", "idstrinaryoperator"], idsTrinaryOperator),
    (["idsu", "idsunaryoperator"], idsUnaryOperator),
    (["ideo", "ideographic"], ideographic),
    (["joinc", "joincontrol"], joinControl),
    (["loe", "logicalorderexception"], logicalOrderException),
    (["mcm", "modifiercombiningmark"], modifierCombiningMark),
    (["nchar", "noncharactercodepoint"], noncharacter),
    (["patsyn", "patternsyntax"], patternSyntax),
    (["patws", "patternwhitespace"], patternWhiteSpace),
    (["pcm", "prependedconcatenationmark"], prependedMark),
    (["qmark", "quotationmark"], quotationMark),
    (["radical"], radical),
    (["ri", "regionalindicator"], regionalIndicator),
    (["sterm", "sentenceterminal"], sentenceTerminal),
    (["sd", "softdotted"], softDotted),
    (["term", "terminalpunctuation"], terminalPunctuation),
    (["uideo", "unifiedideograph"], unifiedIdeograph),
    (["vs", "variationselector"], variationSelector) ]

/-- Categories taken together, by their names. -/
def groups : List (List String × CharSet) :=
  [ (["any"], .full),
    (["assigned"], assigned),
    (["ascii"], .range 0 0x7F),
    (["l", "letter"], Category.sets [.lu, .ll, .lt, .lm, .lo]),
    (["lc", "casedletter"], Category.sets [.lu, .ll, .lt]),
    (["m", "mark", "combiningmark"], Category.sets [.mn, .mc, .me]),
    (["n", "number"], Category.sets [.nd, .nl, .no]),
    (["p", "punctuation", "punct"], Category.sets [.pc, .pd, .ps, .pe, .pi, .pf, .po]),
    (["s", "symbol"], Category.sets [.sm, .sc, .sk, .so]),
    (["z", "separator"], Category.sets [.zs, .zl, .zp]),
    (["cn", "unassigned"], assigned.compl),
    (["c", "other"], (assigned.diff (Category.sets [.cc, .cf, .co])).compl) ]

/-- A name as the tables write it.  The short name of the ISO comment looks like a leading `is`, and
is not taken for one. -/
def normalize (name : String) : String :=
  let plain (letters : List Char) : String := String.ofList <| (letters.filter fun c =>
    c != ' ' && c != '_' && c != '-' && c.toNat ≤ 0x7F).map Char.toLower
  match name.toList with
  | i :: s :: rest =>
    if i.toLower = 'i' ∧ s.toLower = 's' ∧ plain rest ≠ "c" then plain rest
    else plain (i :: s :: rest)
  | letters => plain letters

/-- The set that a list of names has. -/
def find? (sets : List (List String × CharSet)) (name : String) : Option CharSet :=
  (sets.find? (·.1.contains name)).map (·.2)

def category? (name : String) : Option CharSet :=
  find? groups name <|> (Category.all.find? (·.names.contains name)).map Category.set

/-- The characters that belong to a script. -/
def script? (name : String) : Option CharSet :=
  (Script.all.find? (·.names.contains name)).map Script.own

/-- The characters that are used in a script. -/
def scriptExtension? (name : String) : Option CharSet :=
  (Script.all.find? (·.names.contains name)).map fun script =>
    if script.names.contains "common" || script.names.contains "inherited" then
      script.own.diff (.unions (Script.all.map Script.shared))
    else script.own.union script.shared

/-- The set that a single name denotes: a property, a category or a script. -/
def ofName? (name : String) : Option CharSet :=
  let name := normalize name
  find? binary name <|> category? name <|> script? name

/-- The set that a property and its value denote. -/
def ofValue? (property value : String) : Option CharSet :=
  let value := normalize value
  match normalize property with
  | "gc" | "generalcategory" => category? value
  | "sc" | "script" => script? value
  | "scx" | "scriptextensions" => scriptExtension? value
  | "age" => Age.upTo? value
  | "gcb" | "graphemeclusterbreak" => find? Segmentation.grapheme value
  | "wb" | "wordbreak" => find? Segmentation.word value
  | "sb" | "sentencebreak" => find? Segmentation.sentence value
  | _ => none

end Property

end PipeQuery
