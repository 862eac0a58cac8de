/-
String literals: a text between quotes, with escapes for what must not stand there bare.

`split?` finds the closing quote, `decode?` reads what stands between the quotes, and `encode`
writes it.  How much is escaped beyond the necessary is a matter of style.
-/
namespace PipeQuery

/-- The control characters, U+0000 to U+001F and U+007F to U+009F. -/
def isControl (c : Char) : Bool :=
  c.val < 0x20 || (0x7F ≤ c.val && c.val < 0xA0)

/-- Which characters are escaped, and how. -/
structure EscapeStyle where
  /-- Characters written as a backslash and a letter. -/
  named : List (Char × Char)
  /-- Characters written by their four hexadecimal digits, unless they are named. -/
  numbered : Char → Bool

namespace EscapeStyle

/-- Results: every control character is escaped. -/
def result : EscapeStyle where
  named := [('"', '"'), ('\\', '\\'), ('\n', 'n'), ('\r', 'r'), ('\t', 't')]
  numbered := isControl

/-- Interchange: only what a reader would refuse is escaped. -/
def interchange : EscapeStyle where
  named := [('"', '"'), ('\\', '\\'), ('\x08', 'b'), ('\x0c', 'f'), ('\n', 'n'), ('\r', 'r'),
    ('\t', 't')]
  numbered := fun c => c.val < 0x20

end EscapeStyle

namespace Quoted

/-- Four lower-case hexadecimal digits. -/
def hex4 (n : Nat) : List Char :=
  [n / 4096 % 16, n / 256 % 16, n / 16 % 16, n % 16].map Nat.digitChar

/-- How one character is written between quotes. -/
def escape (style : EscapeStyle) (c : Char) : List Char :=
  match style.named.lookup c with
  | some letter => ['\\', letter]
  | none => if style.numbered c then '\\' :: 'u' :: hex4 c.toNat else [c]

/-- What stands between the quotes. -/
def encode (style : EscapeStyle) (text : List Char) : List Char :=
  text.flatMap (escape style)

/-- The literal of `text`, quotes included. -/
def literal (style : EscapeStyle) (text : String) : String :=
  String.ofList ('"' :: encode style text.toList ++ ['"'])

/-- A text up to its first quote that no backslash precedes, and what follows that quote. -/
def split? : List Char → Option (List Char × List Char)
  | [] => none
  | '"' :: rest => some ([], rest)
  | '\\' :: c :: rest => (split? rest).map fun (body, after) => ('\\' :: c :: body, after)
  | c :: rest => (split? rest).map fun (body, after) => (c :: body, after)

theorem split?_length {text body after : List Char} (h : split? text = some (body, after)) :
    after.length < text.length := by
  fun_induction split? text generalizing body after with
  | case1 => simp at h
  | case2 rest => simp only [Option.some.injEq, Prod.mk.injEq] at h; simp [h.2]
  | case3 c rest ih =>
    obtain ⟨⟨b, a⟩, hs, he⟩ := Option.map_eq_some_iff.1 h
    simp only [Prod.mk.injEq] at he
    have := ih hs
    simp only [List.length_cons, ← he.2]
    omega
  | case4 c rest _ _ ih =>
    obtain ⟨⟨b, a⟩, hs, he⟩ := Option.map_eq_some_iff.1 h
    simp only [Prod.mk.injEq] at he
    have := ih hs
    simp only [List.length_cons, ← he.2]
    omega

/-- A character, or half of one given by number. -/
inductive Piece where
  | char (c : Char)
  | unit (n : Nat)
  deriving DecidableEq, Repr

def hexDigit? (c : Char) : Option Nat :=
  if c.isDigit then some (c.toNat - '0'.toNat)
  else if 'a' ≤ c ∧ c ≤ 'f' then some (c.toNat - 'a'.toNat + 10)
  else if 'A' ≤ c ∧ c ≤ 'F' then some (c.toNat - 'A'.toNat + 10)
  else none

/-- The character that a backslash and this letter stand for. -/
def named? : Char → Option Char
  | '"' => some '"'
  | '\\' => some '\\'
  | '/' => some '/'
  | 'b' => some '\x08'
  | 'f' => some '\x0c'
  | 'n' => some '\n'
  | 'r' => some '\r'
  | 't' => some '\t'
  | _ => none

/-- Four hexadecimal digits in either case. -/
def unit? (a b c d : Char) : Option Nat := do
  let a ← hexDigit? a
  let b ← hexDigit? b
  let c ← hexDigit? c
  let d ← hexDigit? d
  return ((a * 16 + b) * 16 + c) * 16 + d

/-- The pieces between two quotes; none where an escape is unknown or a character must not stand
there. -/
def pieces? : List Char → Option (List Piece)
  | [] => some []
  | '\\' :: 'u' :: a :: b :: c :: d :: rest => do
    let n ← unit? a b c d
    return .unit n :: (← pieces? rest)
  | '\\' :: letter :: rest => do
    let c ← named? letter
    return .char c :: (← pieces? rest)
  | c :: rest =>
    if c = '"' ∨ c = '\\' ∨ c.val < 0x20 then none
    else do return .char c :: (← pieces? rest)

/-- Joins the halves of characters beyond U+FFFF; a half on its own is refused. -/
def combine? : List Piece → Option (List Char)
  | [] => some []
  | .char c :: rest => do return c :: (← combine? rest)
  | .unit high :: .unit low :: rest =>
    if 0xD800 ≤ high ∧ high < 0xDC00 then
      if 0xDC00 ≤ low ∧ low < 0xE000 then do
        return .ofNat (0x10000 + (high - 0xD800) * 0x400 + (low - 0xDC00)) :: (← combine? rest)
      else none
    else if 0xDC00 ≤ high ∧ high < 0xE000 then none
    else do return .ofNat high :: (← combine? (.unit low :: rest))
  | .unit n :: rest =>
    if 0xD800 ≤ n ∧ n < 0xE000 then none else do return .ofNat n :: (← combine? rest)

/-- The text that stands between two quotes. -/
def decode? (body : List Char) : Option (List Char) :=
  (pieces? body).bind combine?

end Quoted

/-- The literal of a text as results write it. -/
def quote (text : String) : String :=
  Quoted.literal .result text

end PipeQuery
