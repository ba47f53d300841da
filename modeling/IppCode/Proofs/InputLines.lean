import Mathlib.Data.List.Basic
import IppCode.Machine.Input
import IppCode.Proofs.Bytes
import IppCode.Proofs.Escapes
import IppCode.Proofs.Literals
import IppCode.Proofs.Trimming
/-!
# InputLines — what successive reads make of the input

The input is cut at its line feeds, and each read takes the next line (`line_append`, `line_last`).
The text of a line that a line feed ends lacks a carriage return at its end, which may be taken away
before or after the bytes are decoded (`map_dropReturn_decode?`); that of a last line without one is the whole
line.  So nothing of the input is lost, and values that are written one a line are read back
(`lines_lossless`).
-/
namespace IppCode

/-! ## Line ends -/

namespace Utf8

variable {bytes : Bytes} {t u : Text}

theorem lineFeed_not_mem_encode (h : '\n' ∉ t) : 0x0A ∉ encode t := by
  rw [encode_eq_flatMap, List.mem_flatMap]
  rintro ⟨c, hc, hbyte⟩
  have hfeed : c = '\n' := eq_of_mem_encodeChar (by decide) (by decide) hbyte
  exact h (hfeed ▸ hc)

/-- **A carriage return at the end is one of the text and of its bytes.** -/
theorem exists_encode_eq (h : encode u = bytes ++ [0x0D]) : ∃ t, u = t ++ ['\r'] ∧ encode t = bytes := by
  rcases List.eq_nil_or_concat' u with rfl | ⟨t, c, rfl⟩
  · cases (List.append_ne_nil_of_right_ne_nil bytes (List.cons_ne_nil _ _)) h.symm
  · rw [encode_append, encode_eq_flatMap [c], List.flatMap_singleton] at h
    obtain hnil | ⟨front, b, hb⟩ := List.eq_nil_or_concat' (String.utf8EncodeChar c)
    · exact absurd hnil (encodeChar_ne_nil c)
    · rw [hb, ← List.append_assoc] at h
      obtain ⟨hfront, hlast⟩ := List.append_inj' h rfl
      cases hlast
      have hmem : 0x0D ∈ String.utf8EncodeChar c := hb ▸ List.mem_append_right front List.mem_cons_self
      have hone := (encodeChar_of_mem (by decide) hmem).1
      have hc : c = '\r' := eq_of_mem_encodeChar (by decide) (by decide) hmem
      have hnil : front = [] := by
        rw [hone] at hb
        have hlist : [] ++ [(0x0D : UInt8)] = front ++ [0x0D] := hb
        exact (List.append_inj' hlist rfl).1.symm
      rw [hnil, List.append_nil] at hfront
      exact ⟨t, by rw [hc], hfront⟩

theorem decode?_append_return (bytes : Bytes) : decode? (bytes ++ [0x0D]) = (decode? bytes).map (· ++ ['\r']) := by
  ext u
  simp only [Option.map_eq_some_iff, decode?_eq_some]
  constructor
  · intro h
    obtain ⟨t, rfl, ht⟩ := exists_encode_eq h
    exact ⟨t, ht, rfl⟩
  · rintro ⟨t, rfl, rfl⟩
    rw [encode_append]
    rfl

end Utf8

/-! ## Lines -/

namespace Input

variable {bytes rest : Utf8.Bytes} {n : TypeName}

theorem cutLine_append (h : 0x0A ∉ bytes) : cutLine (bytes ++ 0x0A :: rest) = some (bytes, rest) := by
  induction bytes with
  | nil => rfl
  | cons b bytes ih =>
    have hb : b ≠ 0x0A := (List.ne_of_not_mem_cons h).symm
    rw [List.cons_append, cutLine, if_neg hb, ih (List.not_mem_of_not_mem_cons h)]
    rfl

theorem cutLine_eq_none (h : 0x0A ∉ bytes) : cutLine bytes = none := by
  induction bytes with
  | nil => rfl
  | cons b bytes ih =>
    have hb : b ≠ 0x0A := (List.ne_of_not_mem_cons h).symm
    rw [cutLine, if_neg hb, ih (List.not_mem_of_not_mem_cons h)]
    rfl

theorem line_append (h : 0x0A ∉ bytes) :
    line (bytes ++ 0x0A :: rest) = ((Utf8.decode? bytes).map dropReturn, rest) := by
  unfold line
  rw [cutLine_append h]

theorem line_last (h : 0x0A ∉ bytes) (hne : bytes ≠ []) : line bytes = (Utf8.decode? bytes, []) := by
  unfold line
  rw [cutLine_eq_none h]
  simp [hne]

/-- A line that a line feed ends, without a carriage return at its end. -/
def bare (bytes : Utf8.Bytes) : Utf8.Bytes := if bytes.getLast? = some 0x0D then bytes.dropLast else bytes

theorem map_dropReturn_decode? (bytes : Utf8.Bytes) :
    (Utf8.decode? bytes).map dropReturn = Utf8.decode? (bare bytes) := by
  unfold bare
  split
  · rename_i hlast
    obtain ⟨front, rfl⟩ := List.getLast?_eq_some_iff.1 hlast
    rw [Utf8.decode?_append_return, List.dropLast_concat, Option.map_map]
    cases Utf8.decode? front with
    | none => rfl
    | some t => simp [dropReturn]
  · rename_i hlast
    cases ht : Utf8.decode? bytes with
    | none => rfl
    | some t =>
      have hreturn : t.getLast? ≠ some '\r' := by
        intro h
        obtain ⟨front, rfl⟩ := List.getLast?_eq_some_iff.1 h
        rw [Utf8.decode?_eq_some, Utf8.encode_append] at ht
        exact hlast (List.getLast?_eq_some_iff.2 ⟨_, ht.symm⟩)
      rw [Option.map_some, dropReturn, if_neg hreturn]

/-! ## Reads one after another -/

/-- What reads of these types give, one after another. -/
def answers : List TypeName → Input → List (Option Value)
  | [],      _     => []
  | n :: ns, input => (input.read n).1 :: answers ns (input.read n).2

/-- **The texts of the lines**: of those that a line feed ends, and of what follows the last line feed,
if anything does.  A line that is not UTF-8 has none. -/
def lineTexts (ended : List Utf8.Bytes) (last : Utf8.Bytes) : List (Option Text) :=
  (ended.map fun l => Utf8.decode? (bare l)) ++ if last = [] then [] else [Utf8.decode? last]

/-- **Lines, each with a line feed, and what follows them.** -/
def ofLines (ended : List Utf8.Bytes) (last : Utf8.Bytes) : Utf8.Bytes := (ended.flatMap fun l => l ++ [0x0A]) ++ last

variable {ended : List Utf8.Bytes} {last : Utf8.Bytes}

theorem ofLines_cons (l : Utf8.Bytes) : ofLines (l :: ended) last = l ++ 0x0A :: ofLines ended last := by
  simp [ofLines]

theorem exists_lines : ∀ bytes : Utf8.Bytes, ∃ ended last, bytes = ofLines ended last ∧ ∀ l ∈ last :: ended, 0x0A ∉ l
  | [] => ⟨[], [], rfl, by simp⟩
  | b :: bytes => by
    obtain ⟨ended, last, rfl, h⟩ := exists_lines bytes
    obtain ⟨hlast, hended⟩ := List.forall_mem_cons.1 h
    by_cases hb : b = 0x0A
    · refine ⟨[] :: ended, last, by rw [ofLines_cons, hb]; rfl, ?_⟩
      simpa using h
    · cases ended with
      | nil =>
        refine ⟨[], b :: last, rfl, ?_⟩
        simpa [Ne.symm hb] using hlast
      | cons l ended =>
        obtain ⟨hl, hrest⟩ := List.forall_mem_cons.1 hended
        refine ⟨(b :: l) :: ended, last, by rw [ofLines_cons, ofLines_cons]; rfl, ?_⟩
        simpa [Ne.symm hb] using ⟨hlast, hl, hrest⟩

/-- At the end of the input every read gives nothing. -/
theorem answers_nil : ∀ ns : List TypeName, answers ns (lines []) = ns.map fun _ => none
  | [] => rfl
  | _ :: ns => congrArg (none :: ·) (answers_nil ns)

theorem read_eq {text : Option Text} (h : line bytes = (text, rest)) :
    read n (lines bytes) = (text.bind (valueOf? n), lines rest) := by
  rw [read_lines, h]

theorem bind_valueOf?_string (text : Option Text) : text.bind (valueOf? .string) = text.map Value.text := by
  cases text <;> rfl

/-- **Reads of strings give the texts of the lines**, and nothing when there are no more of them. -/
theorem answers_strings (h : ∀ l ∈ last :: ended, 0x0A ∉ l) (k : Nat) :
    answers (List.replicate k .string) (lines (ofLines ended last)) =
      (List.range k).map fun i => ((lineTexts ended last)[i]?.join).map Value.text := by
  induction k generalizing ended last with
  | zero => rfl
  | succ k ih =>
    obtain ⟨hlast, hended⟩ := List.forall_mem_cons.1 h
    have hdone : answers (List.replicate k .string) (lines (ofLines [] [])) =
        (List.range k).map fun i => ((lineTexts [] [])[i]?.join).map Value.text := ih (by simp)
    rw [List.replicate_succ, List.range_succ_eq_map, List.map_cons, List.map_map]
    cases ended with
    | cons l ended =>
      obtain ⟨hl, hrest⟩ := List.forall_mem_cons.1 hended
      have hline : line (ofLines (l :: ended) last) = (Utf8.decode? (bare l), ofLines ended last) := by
        rw [ofLines_cons, line_append hl, map_dropReturn_decode?]
      rw [answers, read_eq hline, bind_valueOf?_string, ih (List.forall_mem_cons.2 ⟨hlast, hrest⟩)]
      rfl
    | nil =>
      by_cases hne : last = []
      · subst hne
        rw [answers, read_eq (show line (ofLines [] []) = (none, ofLines [] []) from rfl), hdone]
        rfl
      · have hline : line (ofLines [] last) = (Utf8.decode? last, ofLines [] []) := line_last hlast hne
        have htexts : lineTexts [] last = [Utf8.decode? last] := if_neg hne
        rw [answers, read_eq hline, bind_valueOf?_string, hdone, htexts]
        rfl

/-! ## Values that are read back -/

/-- **A value that is read back from a line of its own** by a read of the type. -/
inductive Lasts : TypeName → Value → Prop
  | int (n : Int64) : Lasts .int (.int n)
  | bool (b : Bool) : Lasts .bool (.bool b)
  | text {t : Text} (hline : '\n' ∉ t) (hend : t.getLast? ≠ some '\r') : Lasts .string (.text t)

/-- What writing the values gives, each on a line of its own. -/
def printed (values : List Value) : Text := values.flatMap fun v => v.shown ++ ['\n']

variable {v : Value} {types : List TypeName} {values : List Value}

theorem not_white_of_mem_ofInt (z : Int) : ∀ c ∈ Numeral.ofInt z, Unicode.isWhiteSpace c = false := by
  have hcode : ∀ m < 103, Numeral.isDigit 10 (Char.ofNat m) = true → Unicode.isWhiteSpace (Char.ofNat m) = false := by
    decide
  have hdigits (k : Nat) : ∀ c ∈ Numeral.ofNat k, Unicode.isWhiteSpace c = false := by
    intro c hc
    have hdigit := Numeral.isDigit_of_mem_ofNat k c hc
    obtain ⟨d, hd⟩ := (Numeral.isDigit_iff (by decide)).1 hdigit
    have hlt := Numeral.toNat_lt_of_digit? (hd.digit? (by decide))
    rw [← Char.ofNat_toNat c] at hdigit ⊢
    exact hcode _ hlt hdigit
  unfold Numeral.ofInt
  split
  · exact List.forall_mem_cons.2 ⟨by decide, hdigits _⟩
  · exact hdigits _

theorem Lasts.valueOf? (h : Lasts n v) : valueOf? n v.shown = some v := by
  cases h with
  | int w =>
    unfold Input.valueOf? Value.shown
    simp only [Text.trim_eq_self (not_white_of_mem_ofInt w.toInt), IntLiteral.parse_ofInt, Option.map_some]
  | bool b => cases b <;> decide +kernel
  | text => rfl

theorem Lasts.isLine (h : Lasts n v) : '\n' ∉ v.shown ∧ v.shown.getLast? ≠ some '\r' := by
  have hplain {t : Text} (ht : ∀ c ∈ t, Text.Plain c) : '\n' ∉ t ∧ t.getLast? ≠ some '\r' := by
    refine ⟨fun hc => ?_, fun hc => ?_⟩
    · exact absurd (ht _ hc).1 (by decide)
    · exact absurd (ht _ (List.mem_of_getLast? hc)).1 (by decide)
  cases h with
  | int w => exact hplain (Numeral.plain_of_mem_ofInt w.toInt)
  | bool b => cases b <;> decide
  | text hline hend => exact ⟨hline, hend⟩

theorem Lasts.read (h : Lasts n v) (t : Text) :
    read n (lines (Utf8.encode (v.shown ++ '\n' :: t))) = (some v, lines (Utf8.encode t)) := by
  have hbytes : Utf8.encode (v.shown ++ '\n' :: t) = Utf8.encode v.shown ++ 0x0A :: Utf8.encode t := by
    rw [Utf8.encode_append, Utf8.encode_eq_flatMap ('\n' :: t), List.flatMap_cons, ← Utf8.encode_eq_flatMap]
    rfl
  have hdrop : dropReturn v.shown = v.shown := if_neg h.isLine.2
  have hline : line (Utf8.encode v.shown ++ 0x0A :: Utf8.encode t) = (some v.shown, Utf8.encode t) := by
    rw [line_append (Utf8.lineFeed_not_mem_encode h.isLine.1), Utf8.decode_encode, Option.map_some, hdrop]
  rw [hbytes, read_eq hline, Option.bind_some, h.valueOf?]

/-- **Values that are written one a line are read back**, and then there is nothing more to read. -/
theorem answers_printed (h : List.Forall₂ Lasts types values) (more : List TypeName) :
    answers (types ++ more) (lines (Utf8.encode (printed values))) = values.map some ++ more.map fun _ => none := by
  induction h with
  | nil => exact answers_nil more
  | cons hv hrest ih =>
    rw [printed, List.flatMap_cons, List.append_assoc, List.singleton_append, List.cons_append, answers, hv.read]
    exact congrArg _ ih

/-- **Nothing of the input is lost.**  It is cut into lines at its line feeds, and reads of strings
give their texts in turn: each without its line feed and a carriage return directly in front of
that, and the last one whole if no line feed ends it.  A line that is not UTF-8 gives nothing, and neither
does the end.  Values that are written one a line are read back as they are, and then there are no more. -/
theorem lines_lossless (bytes : Utf8.Bytes) :
    (∃ ended last, bytes = ofLines ended last ∧ (∀ l ∈ last :: ended, 0x0A ∉ l) ∧
      ∀ k, answers (List.replicate k .string) (lines bytes) =
        (List.range k).map fun i => ((lineTexts ended last)[i]?.join).map Value.text) ∧
    ∀ types values more, List.Forall₂ Lasts types values →
      answers (types ++ more) (lines (Utf8.encode (printed values))) = values.map some ++ more.map fun _ => none := by
  refine ⟨?_, fun types values more h => answers_printed h more⟩
  obtain ⟨ended, last, rfl, h⟩ := exists_lines bytes
  exact ⟨ended, last, rfl, h, answers_strings h⟩

/-- The least integer, an empty text, and a text with carriage returns that do not end it. -/
theorem lines_lossless_of_returns :
    let types : List TypeName := [.int, .string, .bool, .string]
    let values : List Value := [.int (-0x8000000000000000), .text "", .bool true, .text "\r true\r\t"]
    let bytes := Utf8.encode "-9223372036854775808\n\ntrue\n\r true\r\t\n"
    List.Forall₂ Lasts types values ∧ Utf8.encode (printed values) = bytes ∧
      answers (types ++ [.string, .bool]) (lines bytes) = values.map some ++ [none, none] := by
  intro types values bytes
  have hlasts : List.Forall₂ Lasts types values :=
    .cons (.int _) (.cons (.text (by decide) (by decide)) (.cons (.bool true) (.cons (.text (by decide) (by decide)) .nil)))
  have hbytes : Utf8.encode (printed values) = bytes := by decide +kernel
  have hanswers := (lines_lossless []).2 types values [.string, .bool] hlasts
  rw [hbytes] at hanswers
  exact ⟨hlasts, hbytes, hanswers⟩

end Input

end IppCode
