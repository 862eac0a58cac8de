/-
Where text may be divided into graphemes, words and sentences: the classes of characters by which
the boundaries are found.
-/
import PipeQuery.Unicode.Property
import PipeQuery.Unicode.Script

namespace PipeQuery

namespace Segmentation

open Property

def carriageReturn : CharSet :=
  .single '\r'

def lineFeed : CharSet :=
  .single '\n'

def zeroWidthJoiner : CharSet :=
  .range 0x200D 0x200D

/-! ## Graphemes -/

/-- Consonants that are written before the cluster they belong to. -/
def prependedConsonant : CharSet := .ofText
    "D4E 111C2-111C3 113D1 1193F 11941 11A3A 11A84-11A89 11D46 11F02"

/-- Spacing marks that start a cluster of their own. -/
def notSpacing : CharSet := .ofText
    "102B-102C 1038 1062-1064 1067-106D 1083 1087-108C 108F 109A-109C 1A61 1A63-1A64 AA7B AA7D
    11720-11721"

/-- Vowel signs that are spacing and not marks. -/
def spacingVowel : CharSet := .ofText "E33 EB3"

/-- Consonants that begin a syllable of Hangul. -/
def leadingJamo : CharSet := .ofText "1100-115F A960-A97C"

/-- Vowels of Hangul, and those of other scripts that join like them. -/
def vowelJamo : CharSet := .ofText "1160-11A7 D7B0-D7C6 16D63 16D67-16D6A"

/-- Consonants that end a syllable of Hangul. -/
def trailingJamo : CharSet := .ofText "11A8-11FF D7CB-D7FB"

/-- Syllables of Hangul without a consonant at the end. -/
def openSyllable : CharSet := .ofText "AC00-D788/1C"

/-- Syllables of Hangul with one. -/
def closedSyllable : CharSet :=
  (CharSet.range 0xAC00 0xD7A3).diff openSyllable

/-- What extends a cluster. -/
def graphemeExtension : CharSet :=
  graphemeExtend.union emojiModifier

/-- What stands alone between clusters. -/
def control : CharSet :=
  (CharSet.unions [Category.sets [.zl, .zp, .cc, .cf], assigned.compl.inter defaultIgnorable]).diff
    (.unions [carriageReturn, lineFeed, zeroWidthJoiner, prependedMark, graphemeExtension])

/-- The classes of graphemes, by their names. -/
def grapheme : List (List String × CharSet) :=
  [ (["cr"], carriageReturn),
    (["lf"], lineFeed),
    (["cn", "control"], control),
    (["ex", "extend"], graphemeExtension),
    (["pp", "prepend"], prependedConsonant.union prependedMark),
    (["sm", "spacingmark"],
      ((Category.set .mc).diff (graphemeExtend.union notSpacing)).union spacingVowel),
    (["l"], leadingJamo),
    (["v"], vowelJamo),
    (["t"], trailingJamo),
    (["lv"], openSyllable),
    (["lvt"], closedSyllable),
    (["ri", "regionalindicator"], regionalIndicator),
    (["zwj"], zeroWidthJoiner) ]

/-! ## Words -/

/-- Letters of scripts that leave no blanks between words. -/
def unspacedLetter : CharSet := .ofText
    "E01-E30 E32-E33 E40-E46 E81-E82 E84 E86-E8A E8C-EA3 EA5 EA7-EB0 EB2-EB3 EBD EC0-EC4 EC6
    EDC-EDF 1000-102A 103F 1050-1055 105A-105D 1061 1065-1066 106E-1070 1075-1081 108E 1780-17B3
    17D7 17DC 1950-196D 1970-1974 1980-19AB 19B0-19C9 1A20-1A54 1AA7 A9E0-A9E4 A9E6-A9EF
    A9FA-A9FE AA60-AA76 AA7A AA7E-AAAF AAB1 AAB5-AAB6 AAB9-AABD AAC0 AAC2 AADB-AADD 11700-1171A
    11740-11746"

/-- What counts as a letter of a word besides what is alphabetic. -/
def wordModifier : CharSet := .ofText
    "2C2-2C5 2D2-2D7 2DE-2DF 2E5-2EB 2ED 2EF-2FF 55A-55C 55E 58A 5F3 70F A708-A716 A720-A721
    A789-A78A AB5B"

/-- Marks and signs that go with Katakana. -/
def katakanaMark : CharSet := .ofText "3031-3035 309B-309C 30A0 30FC FF70"

/-- What joins letters. -/
def midLetter : CharSet := .ofText "3A B7 387 55F 5F4 2027 FE13 FE55 FF1A"

/-- What joins digits. -/
def midNumber : CharSet := .ofText
    "2C 3B 37E 589 60C-60D 66C 7F8 2044 FE10 FE14 FE50 FE54 FF0C FF1B"

/-- What joins letters as well as digits, quotes apart. -/
def midLetterOrNumber : CharSet := .ofText "2E 2018-2019 2024 FE52 FF07 FF0E"

/-- Blanks at which a line may break. -/
def wordSpace : CharSet := .ofText "20 1680 2000-2006 2008-200A 205F 3000"

/-- Digits, the signs that stand before numbers, and the decimal separator of Arabic. -/
def numeric : CharSet :=
  .unions [decimalDigit, prependedMark.diff (.range 0x70F 0x70F), .range 0x66B 0x66B]

/-- What extends a character of a word. -/
def wordExtension : CharSet :=
  .unions [graphemeExtend, Category.set .mc, emojiModifier]

def katakana : CharSet :=
  (Script.katakana.own.union katakanaMark).diff wordExtension

def hebrewLetter : CharSet :=
  Script.hebrew.own.inter (Category.set .lo)

def wordLetter : CharSet :=
  (alphabetic.union wordModifier).diff
    (.unions [ideographic, katakana, unspacedLetter, Script.hiragana.own, wordExtension,
      hebrewLetter])

def formatCharacter : CharSet :=
  (Category.set .cf).diff (.unions [.range 0x200B 0x200D, graphemeExtend, prependedMark])

/-- The classes of words, by their names. -/
def word : List (List String × CharSet) :=
  [ (["cr"], carriageReturn),
    (["lf"], lineFeed),
    (["nl", "newline"], .ofText "B-C 85 2028-2029"),
    (["le", "aletter"], wordLetter),
    (["hl", "hebrewletter"], hebrewLetter),
    (["ka", "katakana"], katakana),
    (["nu", "numeric"], numeric),
    (["ex", "extendnumlet"], (Category.set .pc).union (.range 0x202F 0x202F)),
    (["extend"], wordExtension),
    (["fo", "format"], formatCharacter),
    (["mb", "midnumlet"], midLetterOrNumber),
    (["ml", "midletter"], midLetter),
    (["mn", "midnum"], midNumber),
    (["sq", "singlequote"], .range 0x27 0x27),
    (["dq", "doublequote"], .range 0x22 0x22),
    (["ri", "regionalindicator"], regionalIndicator),
    (["wsegspace"], wordSpace),
    (["zwj"], zeroWidthJoiner) ]

/-! ## Sentences -/

/-- What goes on with a sentence. -/
def continuing : CharSet := .ofText
    "2C-2D 3A-3B 37E 55D 60C-60D 7F8 1802 1808 2013-2014 3001 FE10-FE11 FE13-FE14 FE31-FE32
    FE50-FE51 FE54-FE55 FE58 FE63 FF0C-FF0D FF1A-FF1B FF64"

/-- Points, which may or may not end a sentence. -/
def point : CharSet := .ofText "2E 2024 FE52 FF0E"

/-- Quotes that have no direction. -/
def otherQuote : CharSet := .ofText "22 27 275B-2760 2E00-2E01 2E06-2E08 2E0B 1F676-1F678"

/-- Capitals of Georgian, whose small letters have no case. -/
def caselessCapital : CharSet := .ofText "1C90-1CBA 1CBD-1CBF"

/-- Small letters of Georgian. -/
def caselessSmall : CharSet := .ofText "10D0-10FA 10FD-10FF"

def paragraphSeparator : CharSet := .ofText "85 2028-2029"

/-- What extends a character of a sentence. -/
def sentenceExtension : CharSet :=
  .unions [graphemeExtend, Category.set .mc, zeroWidthJoiner]

def small : CharSet :=
  lowercase.diff (graphemeExtend.union caselessSmall)

def capital : CharSet :=
  (uppercase.union (Category.set .lt)).diff caselessCapital

def otherLetter : CharSet :=
  (alphabetic.union (.range 0x5F3 0x5F3)).diff (.unions [small, capital, sentenceExtension])

def sentenceEnd : CharSet :=
  sentenceTerminal.diff point

/-- The classes of sentences, by their names. -/
def sentence : List (List String × CharSet) :=
  [ (["cr"], carriageReturn),
    (["lf"], lineFeed),
    (["se", "sep"], paragraphSeparator),
    (["ex", "extend"], sentenceExtension),
    (["fo", "format"], formatCharacter.union (.ofText "70F 200B")),
    (["sp"], whiteSpace.diff (.unions [paragraphSeparator, carriageReturn, lineFeed])),
    (["lo", "lower"], small),
    (["up", "upper"], capital),
    (["le", "oletter"], otherLetter),
    (["nu", "numeric"], numeric.union (.range 0x66C 0x66C)),
    (["at", "aterm"], point),
    (["sc", "scontinue"], continuing),
    (["st", "sterm"], sentenceEnd),
    (["cl", "close"],
      (CharSet.unions [Category.sets [.ps, .pe, .pi, .pf], otherQuote]).diff sentenceEnd) ]

end Segmentation

end PipeQuery
