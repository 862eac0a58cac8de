/-
String literals as a grammar: which bodies between two quotes denote which text.

The scanner decodes in two passes, escapes first and halves of characters second.  `Denotes` says
the same in one pass over the body, and the two are shown to agree; what is written by a faithful
style of escaping denotes the text it was written for.
-/
import PipeQuery.Scan

namespace PipeQuery

namespace Quoted

/-- Whether a number is half of a character beyond U+FFFF. -/
def IsHalf (n : Nat) : Prop :=
  0xD800 ≤ n ∧ n < 0xE000

/-- A body between quotes and the text it denotes. -/
inductive Denotes : List Char → List Char → Prop
  | nil : Denotes [] []
  | plain {c : Char} {body text : List Char} (hquote : c ≠ '"') (hbackslash : c ≠ '\\')
      (hcontrol : ¬ c.val < 0x20) (hrest : Denotes body text) : Denotes (c :: body) (c :: text)
  | named {letter c : Char} {body text : List Char} (hletter : named? letter = some c)
      (hrest : Denotes body text) : Denotes ('\\' :: letter :: body) (c :: text)
  | numbered {a b c d : Char} {n : Nat} {body text : List Char} (hdigits : unit? a b c d = some n)
      (hwhole : ¬ IsHalf n) (hrest : Denotes body text) :
      Denotes ('\\' :: 'u' :: a :: b :: c :: d :: body) (Char.ofNat n :: text)
  | paired {a b c d a' b' c' d' : Char} {high low : Nat} {body text : List Char}
      (hhigh : unit? a b c d = some high) (hlow : unit? a' b' c' d' = some low)
      (hupper : 0xD800 ≤ high ∧ high < 0xDC00) (hlower : 0xDC00 ≤ low ∧ low < 0xE000)
      (hrest : Denotes body text) :
      Denotes ('\\' :: 'u' :: a :: b :: c :: d :: '\\' :: 'u' :: a' :: b' :: c' :: d' :: body)
        (Char.ofNat (0x10000 + (high - 0xD800) * 0x400 + (low - 0xDC00)) :: text)

/-! ## The two passes -/

theorem pieces?_plain {c : Char} (hquote : c ≠ '"') (hbackslash : c ≠ '\\')
    (hcontrol : ¬ c.val < 0x20) (body : List Char) :
    pieces? (c :: body) = (pieces? body).map (.char c :: ·) := by
  rw [pieces?.eq_def]
  split
  · contradiction
  · rename_i h
    exact absurd (List.cons.inj h).1 hbackslash
  · rename_i h
    exact absurd (List.cons.inj h).1 hbackslash
  · rename_i h
    obtain ⟨rfl, rfl⟩ := List.cons.inj h
    simp only [hquote, hbackslash, hcontrol, or_self, if_false]
    cases pieces? body <;> rfl

theorem named?_ne_u {letter c : Char} (h : named? letter = some c) : letter ≠ 'u' := by
  rintro rfl
  simp [named?] at h

theorem pieces?_named {letter c : Char} (h : named? letter = some c) (body : List Char) :
    pieces? ('\\' :: letter :: body) = (pieces? body).map (.char c :: ·) := by
  rw [pieces?.eq_def]
  split
  · contradiction
  · rename_i heq
    simp only [List.cons.injEq] at heq
    exact absurd heq.2.1 (named?_ne_u h)
  · rename_i heq
    simp only [List.cons.injEq, true_and] at heq
    obtain ⟨rfl, rfl⟩ := heq
    simp only [h, Option.bind_eq_bind, Option.bind_some]
    cases pieces? body <;> rfl
  · rename_i hno heq
    obtain ⟨rfl, rfl⟩ := List.cons.inj heq
    exact absurd rfl (hno letter body rfl)

theorem pieces?_numbered {a b c d : Char} {n : Nat} (h : unit? a b c d = some n)
    (body : List Char) :
    pieces? ('\\' :: 'u' :: a :: b :: c :: d :: body) = (pieces? body).map (.unit n :: ·) := by
  rw [pieces?]
  simp only [h, Option.bind_eq_bind, Option.bind_some]
  cases pieces? body <;> rfl

/-- What the first pass makes of a body that it accepts: each piece with the characters it stands
for. -/
theorem pieces?_cases {body : List Char} {piece : Piece} {more : List Piece}
    (h : pieces? body = some (piece :: more)) :
    (∃ c rest, piece = .char c ∧ body = c :: rest ∧ c ≠ '"' ∧ c ≠ '\\' ∧ ¬ c.val < 0x20 ∧
        pieces? rest = some more) ∨
      (∃ letter c rest, piece = .char c ∧ body = '\\' :: letter :: rest ∧
        named? letter = some c ∧ pieces? rest = some more) ∨
      (∃ a b c d n rest, piece = .unit n ∧ body = '\\' :: 'u' :: a :: b :: c :: d :: rest ∧
        unit? a b c d = some n ∧ pieces? rest = some more) := by
  rw [pieces?.eq_def] at h
  split at h
  · simp at h
  · rename_i a b c d rest
    obtain ⟨n, hn, ps, hps, heq⟩ : ∃ n, unit? a b c d = some n ∧ ∃ ps, pieces? rest = some ps ∧
        Piece.unit n :: ps = piece :: more := by
      simpa [Option.bind_eq_some_iff] using h
    obtain ⟨rfl, rfl⟩ := List.cons.inj heq
    exact Or.inr (Or.inr ⟨a, b, c, d, n, rest, rfl, rfl, hn, hps⟩)
  · rename_i letter rest _
    obtain ⟨c, hc, ps, hps, heq⟩ : ∃ c, named? letter = some c ∧ ∃ ps, pieces? rest = some ps ∧
        Piece.char c :: ps = piece :: more := by
      simpa [Option.bind_eq_some_iff] using h
    obtain ⟨rfl, rfl⟩ := List.cons.inj heq
    exact Or.inr (Or.inl ⟨letter, c, rest, rfl, rfl, hc, hps⟩)
  · rename_i c rest _ _
    split at h
    · simp at h
    · rename_i hc
      simp only [not_or] at hc
      obtain ⟨ps, hps, heq⟩ :
          ∃ ps, pieces? rest = some ps ∧ Piece.char c :: ps = piece :: more := by
        simpa [Option.bind_eq_some_iff] using h
      obtain ⟨rfl, rfl⟩ := List.cons.inj heq
      exact Or.inl ⟨c, rest, rfl, rfl, hc.1, hc.2.1, hc.2.2, hps⟩

theorem eq_nil_of_pieces? {body : List Char} (h : pieces? body = some []) : body = [] := by
  rw [pieces?.eq_def] at h
  split at h
  · rfl
  · simp [Option.bind_eq_some_iff] at h
  · simp [Option.bind_eq_some_iff] at h
  · split at h
    · simp at h
    · simp [Option.bind_eq_some_iff] at h

/-- A number that is no half is a character of its own, whatever comes after it. -/
theorem combine?_whole {n : Nat} (h : ¬ IsHalf n) (more : List Piece) :
    combine? (.unit n :: more) = (combine? more).map (.ofNat n :: ·) := by
  unfold IsHalf at h
  have hupper : ¬ (0xD800 ≤ n ∧ n < 0xDC00) := fun hn => h ⟨hn.1, Nat.lt_trans hn.2 (by decide)⟩
  have hlower : ¬ (0xDC00 ≤ n ∧ n < 0xE000) := fun hn => h ⟨Nat.le_trans (by decide) hn.1, hn.2⟩
  rcases more with _ | ⟨_ | low, rest⟩
  · simp [combine?, h]
  · rw [combine?.eq_def]
    simp only [h, if_false]
    cases combine? _ <;> rfl
  · rw [combine?]
    simp only [hupper, hlower, if_false]
    cases combine? _ <;> rfl

theorem combine?_pair {high low : Nat} (hupper : 0xD800 ≤ high ∧ high < 0xDC00)
    (hlower : 0xDC00 ≤ low ∧ low < 0xE000) (more : List Piece) :
    combine? (.unit high :: .unit low :: more) =
      (combine? more).map (.ofNat (0x10000 + (high - 0xD800) * 0x400 + (low - 0xDC00)) :: ·) := by
  rw [combine?]
  simp only [hupper, hlower, and_self, if_true]
  cases combine? _ <;> rfl

/-- Halves come in pairs, the upper one first. -/
theorem exists_pair_of_combine?_half {n : Nat} {more : List Piece} {text : List Char}
    (hhalf : IsHalf n) (h : combine? (.unit n :: more) = some text) :
    ∃ low rest, more = .unit low :: rest ∧ (0xD800 ≤ n ∧ n < 0xDC00) ∧
      (0xDC00 ≤ low ∧ low < 0xE000) := by
  unfold IsHalf at hhalf
  rcases more with _ | ⟨_ | low, rest⟩
  · simp [combine?, hhalf] at h
  · rw [combine?.eq_def] at h
    simp [hhalf] at h
  · refine ⟨low, rest, rfl, ?_⟩
    rw [combine?] at h
    by_cases hupper : 0xD800 ≤ n ∧ n < 0xDC00
    · by_cases hlower : 0xDC00 ≤ low ∧ low < 0xE000
      · exact ⟨hupper, hlower⟩
      · simp [hupper, hlower] at h
    · have hlower : 0xDC00 ≤ n ∧ n < 0xE000 := by omega
      simp [hupper, hlower] at h

/-! ## One pass -/

theorem decode?_of_denotes {body text : List Char} (h : Denotes body text) :
    decode? body = some text := by
  induction h with
  | nil => rfl
  | plain hquote hbackslash hcontrol _ ih =>
      obtain ⟨ps, hps, htext⟩ := Option.bind_eq_some_iff.1 ih
      rw [decode?, pieces?_plain hquote hbackslash hcontrol, hps]
      simp [combine?, htext]
  | named hletter _ ih =>
      obtain ⟨ps, hps, htext⟩ := Option.bind_eq_some_iff.1 ih
      rw [decode?, pieces?_named hletter, hps]
      simp [combine?, htext]
  | numbered hdigits hwhole _ ih =>
      obtain ⟨ps, hps, htext⟩ := Option.bind_eq_some_iff.1 ih
      rw [decode?, pieces?_numbered hdigits, hps]
      simp [combine?_whole hwhole, htext]
  | paired hhigh hlow hupper hlower _ ih =>
      obtain ⟨ps, hps, htext⟩ := Option.bind_eq_some_iff.1 ih
      rw [decode?, pieces?_numbered hhigh, pieces?_numbered hlow, hps]
      simp [combine?_pair hupper hlower, htext]

/-- The induction is on the length of the body, since a pair of halves takes two pieces. -/
theorem denotes_of_pieces? (size : Nat) {body text : List Char} {ps : List Piece}
    (hsize : body.length ≤ size) (hps : pieces? body = some ps) (htext : combine? ps = some text) :
    Denotes body text := by
  induction size using Nat.strongRecOn generalizing body text ps with
  | ind size ih =>
      have shorter {rest text : List Char} {more : List Piece} (hlt : rest.length < body.length)
          (hmore : pieces? rest = some more) (hrest : combine? more = some text) :
          Denotes rest text :=
        ih rest.length (Nat.lt_of_lt_of_le hlt hsize) (Nat.le_refl _) hmore hrest
      cases ps with
      | nil =>
          obtain rfl := eq_nil_of_pieces? hps
          obtain rfl : [] = text := by simpa [combine?] using htext
          exact .nil
      | cons piece more =>
          rcases pieces?_cases hps with ⟨c, rest, rfl, rfl, hquote, hbackslash, hcontrol, hmore⟩ |
            ⟨letter, c, rest, rfl, rfl, hletter, hmore⟩ |
            ⟨a, b, c, d, n, rest, rfl, rfl, hdigits, hmore⟩
          · obtain ⟨tail, htail, rfl⟩ : ∃ tail, combine? more = some tail ∧ c :: tail = text := by
              simpa [combine?, Option.bind_eq_some_iff] using htext
            exact .plain hquote hbackslash hcontrol (shorter (by simp) hmore htail)
          · obtain ⟨tail, htail, rfl⟩ : ∃ tail, combine? more = some tail ∧ c :: tail = text := by
              simpa [combine?, Option.bind_eq_some_iff] using htext
            exact .named hletter (shorter (by simp only [List.length_cons]; omega) hmore htail)
          · by_cases hhalf : IsHalf n
            · obtain ⟨low, others, rfl, hupper, hlower⟩ := exists_pair_of_combine?_half hhalf htext
              rcases pieces?_cases hmore with ⟨_, _, hne, _⟩ | ⟨_, _, _, hne, _⟩ |
                ⟨a', b', c', d', low', rest', hlow, rfl, hdigits', hothers⟩
              · simp at hne
              · simp at hne
              · obtain rfl : low = low' := by simpa using hlow
                rw [combine?_pair hupper hlower, Option.map_eq_some_iff] at htext
                obtain ⟨tail, htail, rfl⟩ := htext
                exact .paired hdigits hdigits' hupper hlower
                  (shorter (by simp; omega) hothers htail)
            · rw [combine?_whole hhalf, Option.map_eq_some_iff] at htext
              obtain ⟨tail, htail, rfl⟩ := htext
              exact .numbered hdigits hhalf (shorter (by simp; omega) hmore htail)

/-- The two passes decode exactly the bodies that denote something. -/
theorem decode?_eq_some_iff {body text : List Char} :
    decode? body = some text ↔ Denotes body text := by
  constructor
  · intro h
    obtain ⟨ps, hps, htext⟩ := Option.bind_eq_some_iff.1 h
    exact denotes_of_pieces? body.length (Nat.le_refl _) hps htext
  · exact decode?_of_denotes

/-! ## The closing quote -/

/-- What may stand between a quote and the one that closes it: no bare quote, and behind every
backslash the character that it escapes. -/
inductive Enclosed : List Char → Prop
  | nil : Enclosed []
  | plain {c : Char} {body : List Char} (hquote : c ≠ '"') (hbackslash : c ≠ '\\')
      (hrest : Enclosed body) : Enclosed (c :: body)
  | escaped {c : Char} {body : List Char} (hrest : Enclosed body) : Enclosed ('\\' :: c :: body)

theorem split?_plain {c : Char} (hquote : c ≠ '"') (hbackslash : c ≠ '\\') (rest : List Char) :
    split? (c :: rest) = (split? rest).map fun (body, after) => (c :: body, after) := by
  rw [split?.eq_def]
  split
  · contradiction
  · rename_i h
    exact absurd (List.cons.inj h).1 hquote
  · rename_i h
    exact absurd (List.cons.inj h).1 hbackslash
  · rename_i h
    obtain ⟨rfl, rfl⟩ := List.cons.inj h
    rfl

theorem split?_escaped (c : Char) (rest : List Char) :
    split? ('\\' :: c :: rest) =
      (split? rest).map fun (body, after) => ('\\' :: c :: body, after) := by
  rw [split?]

theorem Enclosed.split?_append {body : List Char} (h : Enclosed body) (after : List Char) :
    split? (body ++ '"' :: after) = some (body, after) := by
  induction h with
  | nil => rfl
  | plain hquote hbackslash _ ih =>
      rw [List.cons_append, split?_plain hquote hbackslash, ih]
      rfl
  | escaped _ ih =>
      rw [List.cons_append, List.cons_append, split?_escaped, ih]
      rfl

theorem enclosed_of_split? {text body after : List Char} (h : split? text = some (body, after)) :
    text = body ++ '"' :: after ∧ Enclosed body := by
  fun_induction split? text generalizing body after with
  | case1 => simp at h
  | case2 rest =>
      obtain ⟨rfl, rfl⟩ : [] = body ∧ rest = after := by simpa using h
      exact ⟨rfl, .nil⟩
  | case3 c rest ih =>
      obtain ⟨⟨b, a⟩, hs, he⟩ := Option.map_eq_some_iff.1 h
      obtain ⟨rfl, rfl⟩ : '\\' :: c :: b = body ∧ a = after := by simpa using he
      obtain ⟨rfl, hbody⟩ := ih hs
      exact ⟨rfl, .escaped hbody⟩
  | case4 c rest hquote hescaped ih =>
      obtain ⟨⟨b, a⟩, hs, he⟩ := Option.map_eq_some_iff.1 h
      obtain ⟨rfl, rfl⟩ : c :: b = body ∧ a = after := by simpa using he
      obtain ⟨rfl, hbody⟩ := ih hs
      -- a backslash with nothing behind it has no closing quote either
      have hbackslash : c ≠ '\\' := by
        rintro rfl
        exact hescaped _ _ rfl (List.cons_head_tail (by simp)).symm
      exact ⟨rfl, .plain hquote hbackslash hbody⟩

theorem not_isHexDigit_quote : hexDigit? '"' = none := by decide

theorem not_isHexDigit_backslash : hexDigit? '\\' = none := by decide

theorem Enclosed.digit {c : Char} {n : Nat} {body : List Char} (h : hexDigit? c = some n)
    (hrest : Enclosed body) : Enclosed (c :: body) := by
  refine .plain ?_ ?_ hrest
  · rintro rfl
    simp [not_isHexDigit_quote] at h
  · rintro rfl
    simp [not_isHexDigit_backslash] at h

/-- The four digits of an escape are passed one by one. -/
theorem Enclosed.digits {a b c d : Char} {n : Nat} {body : List Char} (h : unit? a b c d = some n)
    (hrest : Enclosed body) : Enclosed (a :: b :: c :: d :: body) := by
  obtain ⟨_, ha, _, hb, _, hc, _, hd, _⟩ : ∃ x, hexDigit? a = some x ∧ ∃ y, hexDigit? b = some y ∧
      ∃ z, hexDigit? c = some z ∧ ∃ w, hexDigit? d = some w ∧
        ((x * 16 + y) * 16 + z) * 16 + w = n := by
    simpa [unit?, Option.bind_eq_some_iff] using h
  exact .digit ha (.digit hb (.digit hc (.digit hd hrest)))

theorem Denotes.enclosed {body text : List Char} (h : Denotes body text) : Enclosed body := by
  induction h with
  | nil => exact .nil
  | plain hquote hbackslash _ _ ih => exact .plain hquote hbackslash ih
  | named _ _ ih => exact .escaped ih
  | numbered hdigits _ _ ih => exact .escaped (ih.digits hdigits)
  | paired hhigh hlow _ _ _ ih => exact .escaped ((Enclosed.escaped (ih.digits hlow)).digits hhigh)

/-- A body that denotes something ends at the first quote after it. -/
theorem split?_append {body text : List Char} (h : Denotes body text) (after : List Char) :
    split? (body ++ '"' :: after) = some (body, after) :=
  h.enclosed.split?_append after

end Quoted

/-! ## The scanner -/

/-- A string literal as written, quotes included, and its text. -/
def StringLiteral (literal : List Char) (text : String) : Prop :=
  ∃ body, literal = '"' :: body ++ ['"'] ∧ Quoted.Denotes body text.toList

namespace Scan

theorem stringLiteral_of_string {text : List Char} {taken : Taken String text}
    (h : string text = .found taken) :
    ∃ literal, text = literal ++ taken.rest ∧ StringLiteral literal taken.value := by
  unfold string at h
  split at h
  · split at h
    · simp at h
    · rename_i body after hsplit
      split at h
      · simp at h
      · rename_i chars hdecode
        obtain rfl := (StringScan.found.inj h).symm
        refine ⟨'"' :: body ++ ['"'], ?_, body, rfl, ?_⟩
        · simp [(Quoted.enclosed_of_split? hsplit).1]
        · simpa using Quoted.decode?_eq_some_iff.1 hdecode
  · simp at h

theorem string_of_split? {text body rest chars : List Char}
    (hsplit : Quoted.split? text = some (body, rest)) (hdecode : Quoted.decode? body = some chars) :
    ∃ shorter, string ('"' :: text) = .found ⟨String.ofList chars, rest, shorter⟩ := by
  refine ⟨Nat.lt_succ_of_lt (Quoted.split?_length hsplit), ?_⟩
  rw [string]
  split
  · rename_i hnone
    rw [hsplit] at hnone
    contradiction
  · rename_i found after hfound
    obtain ⟨rfl, rfl⟩ : body = found ∧ rest = after := by simpa [hsplit] using hfound
    simp only [hdecode]

theorem string_append {literal : List Char} {text : String} (h : StringLiteral literal text)
    (rest : List Char) :
    ∃ shorter, string (literal ++ rest) = .found ⟨text, rest, shorter⟩ := by
  obtain ⟨body, rfl, hbody⟩ := h
  have hsplit := Quoted.split?_append hbody rest
  have heq : '"' :: body ++ ['"'] ++ rest = '"' :: (body ++ '"' :: rest) := by simp
  rw [heq]
  simpa using string_of_split? hsplit (Quoted.decode?_of_denotes hbody)

theorem string_of_head_ne {text : List Char} (h : text.head? ≠ some '"') :
    string text = .absent := by
  unfold string
  split
  · simp at h
  · rfl

end Scan

/-! ## Writing -/

namespace EscapeStyle

/-- What a style must escape, and how, for a reader to get the text back. -/
structure Faithful (style : EscapeStyle) : Prop where
  named {c letter : Char} (h : style.named.lookup c = some letter) :
    Quoted.named? letter = some c
  quote : style.named.lookup '"' ≠ none
  backslash : style.named.lookup '\\' ≠ none
  control {c : Char} (h : c.val < 0x20) : style.numbered c = true
  numbered {c : Char} (h : style.numbered c = true) : c.toNat < 0xD800

theorem faithful_result : result.Faithful where
  named {c letter} h := by
    have hnamed : ∀ entry ∈ result.named, Quoted.named? entry.2 = some entry.1 := by decide
    obtain ⟨before, after, heq, _⟩ := List.lookup_eq_some_iff.1 h
    exact hnamed (c, letter) (by simp [heq])
  quote := by decide
  backslash := by decide
  control h := by simp [result, isControl, h]
  numbered {c} h := by
    simp only [result, isControl, Bool.or_eq_true, Bool.and_eq_true, decide_eq_true_eq,
      UInt32.lt_iff_toNat_lt, UInt32.le_iff_toNat_le] at h
    have : c.toNat = c.val.toNat := rfl
    simp at h
    omega

end EscapeStyle

namespace Quoted

theorem hexDigit?_digitChar {n : Nat} (h : n < 16) : hexDigit? n.digitChar = some n := by
  revert n
  decide

theorem unit?_hex4 {n : Nat} {w x y z : Char} (hn : n < 65536)
    (h : hex4 n = [w, x, y, z]) : unit? w x y z = some n := by
  simp only [hex4, List.map_cons, List.map_nil, List.cons.injEq, and_true] at h
  obtain ⟨rfl, rfl, rfl, rfl⟩ := h
  have hlt (m : Nat) : m % 16 < 16 := Nat.mod_lt _ (by decide)
  simp only [unit?, hexDigit?_digitChar (hlt _), Option.bind_eq_bind, Option.bind_some,
    Option.pure_def, Option.some.injEq]
  omega

theorem denotes_encode {style : EscapeStyle} (hstyle : style.Faithful) (text : List Char) :
    Denotes (encode style text) text := by
  induction text with
  | nil => exact .nil
  | cons c rest ih =>
      rw [encode, List.flatMap_cons, ← encode]
      unfold escape
      split
      · rename_i letter hletter
        exact .named (hstyle.named hletter) ih
      · rename_i hnone
        split
        · rename_i hnumbered
          have hsmall := hstyle.numbered hnumbered
          have hwhole : ¬ IsHalf c.toNat := fun h => absurd h.1 (by omega)
          have hdenotes := Denotes.numbered (unit?_hex4 (n := c.toNat) (by omega) rfl) hwhole ih
          rwa [Char.ofNat_toNat] at hdenotes
        · rename_i hplain
          refine .plain ?_ ?_ ?_ ih
          · rintro rfl
            exact hstyle.quote hnone
          · rintro rfl
            exact hstyle.backslash hnone
          · exact fun hcontrol => hplain (hstyle.control hcontrol)

theorem stringLiteral_literal {style : EscapeStyle} (hstyle : style.Faithful) (text : String) :
    StringLiteral (literal style text).toList text := by
  refine ⟨encode style text.toList, ?_, denotes_encode hstyle text.toList⟩
  simp [literal]

end Quoted

end PipeQuery
