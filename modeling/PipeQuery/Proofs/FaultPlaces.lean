/-
The place of a fault.

A fault in a text is placed where reading stopped: no character that was asked for stands there.  A
part too much is all that is left behind the blanks after an expression, and what stands before it
is a query of its own, as nothing behind the cut decided how it was read.
-/
import PipeQuery.Proofs.Truncation

namespace PipeQuery

namespace Parser

open Scan (skipBlanks)

variable {table : OperatorTable} {limit : Nat} {text : String} {fault : SyntaxFault}
  {operand : Operand} {before rest : List Char}

/-! ## Places and positions -/

theorem position_toFault_le (stop : Stop) : (stop.toFault text).position ≤ text.length := by
  simp only [Stop.toFault, String.length_toList]
  omega

theorem drop_position_toFault {stop : Stop} (h : stop.rest <:+ text.toList) :
    text.toList.drop (stop.toFault text).position = stop.rest :=
  (List.suffix_iff_eq_drop.1 h).symm

/-- The character at the position is the first one that is left. -/
theorem getElem?_position_toFault {stop : Stop} (h : stop.rest <:+ text.toList) :
    text.toList[(stop.toFault text).position]? = stop.rest.head? := by
  rw [← List.head?_drop, drop_position_toFault h]

/-! ## Parts too much -/

/-- What is left after an expression and blanks. -/
structure Remains (table : OperatorTable) (limit : Nat) (text : String) (rest : List Char) :
    Prop where
  ne_nil : rest ≠ []
  read : ∃ operand after, Reads (expression table limit limit) text.toList operand after ∧
    rest = skipBlanks after

theorem Remains.suffix (h : Remains table limit text rest) : rest <:+ text.toList := by
  obtain ⟨operand, after, hreads, rfl⟩ := h.read
  exact (skipBlanks_suffix after).trans ((stays_expression table limit limit).suffix hreads)

theorem Remains.ends (h : Remains table limit text rest) : Scan.Ends Scan.isBlank rest := by
  obtain ⟨_, after, _, rfl⟩ := h.read
  exact Scan.ends_dropWhile Scan.isBlank after

/-- A fault is a place inside the text, or a part too much. -/
theorem stop_of_parse (h : parse table limit text = .error fault) :
    (∃ stop : Stop, stop.Placed text.toList ∧ fault = stop.toFault text) ∨
      ∃ rest, Remains table limit text rest ∧
        fault = Stop.toFault ⟨.unexpectedPart (String.ofList rest), rest⟩ text := by
  have hstays := stays_expression table limit limit (List.suffix_refl text.toList)
  unfold parse at h
  split at h
  · rename_i stop hstop
    rw [hstop] at hstays
    exact .inl ⟨stop, hstays.placed, (Except.error.inj h).symm⟩
  · rename_i taken htaken
    split at h
    · cases h
    · rename_i hne
      exact .inr ⟨_, ⟨hne, _, _, reads_of_ok htaken, rfl⟩, (Except.error.inj h).symm⟩

theorem parse_of_remains (h : Remains table limit text rest) :
    parse table limit text =
      .error (Stop.toFault ⟨.unexpectedPart (String.ofList rest), rest⟩ text) := by
  obtain ⟨operand, after, ⟨_, hreads⟩, rfl⟩ := h.read
  simp only [parse, hreads]
  split
  · exact absurd ‹_› h.ne_nil
  · rfl

/-- An expression is a query of its own without what is left behind its blanks. -/
theorem parse_of_cut (hseparable : Separable table) (hunstarted : Unstarted table)
    (h : Reads (expression table limit limit) text.toList operand rest)
    (hbefore : text.toList = before ++ skipBlanks rest) :
    parse table limit (String.ofList before) = .ok operand.query := by
  obtain ⟨blanks, hblanks, hblank⟩ := exists_blank_skipBlanks rest
  have hmore : Scan.Ends Scan.isBlank (skipBlanks rest) := Scan.ends_dropWhile Scan.isBlank rest
  generalize skipBlanks rest = more at hbefore hblanks hmore
  subst hblanks
  have hnone : skipBlanks blanks = [] := by simpa [skipBlanks] using skipBlanks_append hblank []
  rw [hbefore] at h
  -- only blanks are left before the cut, so no operator is refused there
  have hcuts := cutsOrStalls_expression hseparable hunstarted hmore limit limit h
  obtain ⟨_, hreads⟩ := hcuts.resolve_right fun hstalls => hstalls.1 hnone
  exact parse_of_expression String.toList_ofList hreads hnone

theorem Remains.exists_parse (hseparable : Separable table) (hunstarted : Unstarted table)
    (h : Remains table limit text rest) :
    ∃ query,
      parse table limit (String.ofList (text.toList.take (text.toList.length - rest.length))) =
        .ok query := by
  obtain ⟨operand, after, hreads, hrest⟩ := h.read
  obtain ⟨before, hbefore⟩ := h.suffix
  have htake : text.toList.take (text.toList.length - rest.length) = before := by
    simp [← hbefore]
  rw [htake]
  exact ⟨operand.query, parse_of_cut hseparable hunstarted hreads (hrest ▸ hbefore.symm)⟩

end Parser

/-- The place of a fault is inside the text, and the character that was asked for does not stand
there.  A part too much is all of the text from there on, does not start with a blank, and has a
query before it. -/
theorem fault_of_parse {limit : Nat} {text : String} {fault : SyntaxFault}
    (h : parse .builtin limit text = .error fault) :
    fault.text = text ∧ fault.position ≤ text.length ∧
      (∀ c, fault.cause = .charExpected c → text.toList[fault.position]? ≠ some c) ∧
      ∀ part, fault.cause = .unexpectedPart part →
        part.toList = text.toList.drop fault.position ∧ part ≠ "" ∧
          (∀ c, part.toList.head? = some c → Scan.isBlank c = false) ∧
          ∃ query,
            parse .builtin limit (String.ofList (text.toList.take fault.position)) = .ok query := by
  rcases Parser.stop_of_parse h with ⟨stop, hplaced, rfl⟩ | ⟨rest, hremains, rfl⟩
  · refine ⟨rfl, Parser.position_toFault_le stop, fun c hcause => ?_, fun part hcause => ?_⟩
    · rw [Parser.getElem?_position_toFault hplaced.suffix]
      exact hplaced.missing hcause
    · exact absurd hcause (hplaced.not_part part)
  · let stop : Parser.Stop := ⟨.unexpectedPart (String.ofList rest), rest⟩
    have hsuffix : stop.rest <:+ text.toList := hremains.suffix
    refine ⟨rfl, Parser.position_toFault_le _, fun _ => nofun, fun part hcause => ?_⟩
    obtain rfl := SyntaxCause.unexpectedPart.inj hcause
    refine ⟨?_, ?_, ?_, hremains.exists_parse Parser.separable_builtin Parser.unstarted_builtin⟩
    · exact String.toList_ofList.trans (Parser.drop_position_toFault hsuffix).symm
    · simpa using hremains.ne_nil
    · rw [String.toList_ofList]
      exact hremains.ends

/-- A bracket that nothing opened is a part too much behind a keyword. -/
theorem fault_of_parse_bracket :
    let fault : SyntaxFault := ⟨.unexpectedPart "]", 5, "null ]"⟩
    parse .builtin 1 "null ]" = .error fault ∧
      ("]".toList = "null ]".toList.drop 5 ∧ "]" ≠ "" ∧
        (∀ c, "]".toList.head? = some c → Scan.isBlank c = false) ∧
        ∃ query, parse .builtin 1 (String.ofList ("null ]".toList.take 5)) = .ok query) := by
  intro fault
  have hnull := @Parser.readsOperand_literal .builtin 1 _ 0 Parser.separable_builtin.legible _ .null
  have hcloses : Parser.Closes [' ', ']'] :=
    @Parser.closes_append_cons [' '] ']' (by simp [Grammar.Blank, Scan.isBlank]) (by decide) []
  have hremains : Parser.Remains .builtin 1 "null ]" [']'] := by
    refine ⟨by simp, .constant .null, [']'], ?_, rfl⟩
    have htext : "null ]".toList = [] ++ Scan.keywordText none ++ [' ', ']'] := by decide
    rw [htext]
    exact hnull.reads Grammar.blank_nil hcloses
  have hparse : parse .builtin 1 "null ]" = .error fault := Parser.parse_of_remains hremains
  exact ⟨hparse, (fault_of_parse hparse).2.2.2 "]" rfl⟩

end PipeQuery
