import IppCode.Json.Value
import IppCode.Proofs.Digits
/-!
# Printed — a JSON value that is printed is read back

The lexer finds in the text of a value the tokens of the value, whatever the indentation is
(`reads_print`), and the reader puts them together to the value again (`run_tokens`).  What can
be printed are strings of characters and of halves of characters, and numbers whose literal is
one (`Printable`); nothing else is asked of a value, and neither its depth nor its size is
limited (`parse_pretty`).
-/
namespace IppCode.Json

/-- Every unit is the code of a character or half of one. -/
def Units.Spelled (us : Units) : Prop := ∀ u ∈ us, u < 0x110000

namespace Token

/-! ## Tokens in a text -/

/-- The text is read as these tokens. -/
def Reads (t : Text) (ts : List Token) : Prop := ofText? t = some ts

/-- A character that a word or a number may have: no blank, no quote and no punctuation mark. -/
def isPlain (c : Char) : Bool := !isBlank c && c != '"' && (punctuation? c).isNone

/-- A word or a number is over before this text. -/
def Stops : Text → Prop
  | []     => True
  | c :: _ => isBlank c = true ∨ (punctuation? c).isSome = true

variable {t r w : Text} {ts : List Token} {token : Token} {c : Char}

theorem isPlain_iff : isPlain c = true ↔ isBlank c = false ∧ c ≠ '"' ∧ punctuation? c = none := by
  simp [isPlain, and_assoc]

theorem not_blank_of_punctuation (hc : punctuation? c = some token) : isBlank c = false ∧ c ≠ '"' := by
  refine ⟨Bool.eq_false_iff.2 fun hblank => ?_, ?_⟩
  · simp only [isBlank, Bool.or_eq_true, decide_eq_true_eq] at hblank
    rcases hblank with ((rfl | rfl) | rfl) | rfl <;> cases hc
  · rintro rfl
    cases hc

namespace Reads

theorem blank (hc : isBlank c = true) (h : Reads r ts) : Reads (c :: r) ts := by
  unfold Reads ofText? read
  rwa [if_pos hc]

theorem punctuation (hc : punctuation? c = some token) (h : Reads r ts) : Reads (c :: r) (token :: ts) := by
  obtain ⟨hblank, hquote⟩ := not_blank_of_punctuation hc
  unfold Reads ofText? at h ⊢
  simp [read, hblank, hquote, hc, h]

theorem newLine (depth : Nat) (h : Reads r ts) : Reads (newLine depth ++ r) ts := by
  have hspaces : ∀ n, Reads (List.replicate n ' ' ++ r) ts := by
    intro n
    induction n with
    | zero => exact h
    | succ n ih => exact blank rfl ih
  exact blank rfl (hspaces (2 * depth))

end Reads

/-! ## Words and numbers -/

/-- In the middle of a word or a number. -/
theorem read_bare (hword : bare? (w.reverse ++ t) = some token) (ht : ∀ c ∈ t, isPlain c = true) (hr : Stops r)
    (h : Reads r ts) : read (.bare w) (t ++ r) = some (token :: ts) := by
  unfold Reads ofText? at h
  induction t generalizing w with
  | cons c t ih =>
    obtain ⟨hblank, hquote, hmark⟩ := isPlain_iff.1 (ht c List.mem_cons_self)
    have hgo := ih (w := c :: w) (by simpa using hword) fun d hd => ht d (List.mem_cons_of_mem _ hd)
    simpa [read, hblank, hquote, hmark] using hgo
  | nil =>
    rw [List.append_nil] at hword
    cases r with
    | nil =>
      cases h
      simp [read, hword]
    | cons c r =>
      rcases hr with hblank | hmark
      · rw [read, if_pos hblank] at h
        simp [read, hblank, hword, h]
      · obtain ⟨mark, hmark⟩ := Option.isSome_iff_exists.1 hmark
        obtain ⟨hblank, hquote⟩ := not_blank_of_punctuation hmark
        simp only [read, hblank, hquote, hmark, Bool.false_eq_true, if_false, Option.map_eq_some_iff] at h
        obtain ⟨us, hus, rfl⟩ := h
        simp [read, hblank, hquote, hmark, hword, hus]

namespace Reads

theorem word (hword : bare? t = some token) (ht : ∀ c ∈ t, isPlain c = true) (hne : t ≠ []) (hr : Stops r)
    (h : Reads r ts) : Reads (t ++ r) (token :: ts) := by
  cases t with
  | nil => exact absurd rfl hne
  | cons c t =>
    obtain ⟨hblank, hquote, hmark⟩ := isPlain_iff.1 (ht c List.mem_cons_self)
    have hgo := read_bare (w := [c]) hword (fun d hd => ht d (List.mem_cons_of_mem _ hd)) hr h
    unfold Reads ofText?
    simpa [read, hblank, hquote, hmark] using hgo

end Reads

/-! ## The literals of numbers -/

/-- A character of a number. -/
def isNumeric (c : Char) : Bool := isDigit c || c = '-' || c = '+' || c = '.' || c = 'e' || c = 'E'

theorem isPlain_of_notMem (h : c ∉ (" \t\n\r\"\x7b\x7d[],:" : Text)) : isPlain c = true := by
  simp at h
  simp [isPlain, isBlank, punctuation?, h]

theorem isPlain_of_isNumeric (h : isNumeric c = true) : isPlain c = true := by
  have hmarks : (" \t\n\r\"\x7b\x7d[],:" : Text).all (fun d => !isNumeric d) = true := rfl
  refine isPlain_of_notMem fun hc => ?_
  have hmark := List.all_eq_true.1 hmarks c hc
  rw [h] at hmark
  cases hmark

/-- Only characters of numbers are in the text. -/
def Numeric (t : Text) : Prop := ∀ c ∈ t, isNumeric c = true

namespace Numeric

theorem of_all (h : t.all isDigit = true) : Numeric t := fun c hc => by
  simp [isNumeric, List.all_eq_true.1 h c hc]

theorem cons (hc : isNumeric c = true) (h : Numeric t) : Numeric (c :: t) := List.forall_mem_cons.2 ⟨hc, h⟩

theorem of_takeWhile (h : Numeric (t.dropWhile isDigit)) : Numeric t := by
  rw [← List.takeWhile_append_dropWhile (p := isDigit) (l := t)]
  exact List.forall_mem_append.2 ⟨of_all List.all_takeWhile, h⟩

theorem of_isExponent (h : isExponent t = true) : Numeric t := by
  unfold isExponent at h
  split at h
  · exact nofun
  · rename_i c r
    simp only [Bool.and_eq_true, Bool.or_eq_true, decide_eq_true_eq] at h
    obtain ⟨hc, hr⟩ := h
    have hsign : isNumeric c = true := by rcases hc with rfl | rfl <;> rfl
    refine cons hsign ?_
    split at hr
    · exact cons rfl (of_all (Bool.and_eq_true_iff.1 hr).2)
    · exact cons rfl (of_all (Bool.and_eq_true_iff.1 hr).2)
    · exact of_all (Bool.and_eq_true_iff.1 hr).2

theorem of_isFraction (h : isFraction t = true) : Numeric t := by
  unfold isFraction at h
  split at h
  · rw [Bool.and_eq_true] at h
    exact cons rfl (of_takeWhile (of_isExponent h.2))
  · exact of_isExponent h

theorem of_isUnsigned (h : isUnsigned t = true) : Numeric t := by
  unfold isUnsigned at h
  split at h
  · exact cons rfl (of_isFraction h)
  · rw [Bool.and_eq_true] at h
    exact of_takeWhile (of_isFraction h.2)

theorem of_isNumber (h : isNumber t = true) : Numeric t := by
  unfold isNumber at h
  split at h
  · exact cons rfl (of_isUnsigned h)
  · exact of_isUnsigned h

end Numeric

theorem bare?_of_isNumber (h : isNumber t = true) : bare? t = some (number t) := by
  have hne : ∀ word : Text, isNumber word = false → t ≠ word := by
    rintro word hword rfl
    rw [h] at hword
    cases hword
  rw [bare?, if_neg (hne _ rfl), if_neg (hne _ rfl), if_neg (hne _ rfl), if_pos h]

namespace Reads

theorem number (hnumber : isNumber t = true) (hr : Stops r) (h : Reads r ts) : Reads (t ++ r) (.number t :: ts) := by
  have ht : ∀ c ∈ t, isPlain c = true := fun c hc => isPlain_of_isNumeric (Numeric.of_isNumber hnumber c hc)
  refine word (bare?_of_isNumber hnumber) ht ?_ hr h
  rintro rfl
  cases hnumber

end Reads

/-! ## Strings -/

theorem hexDigit?_digitChar : ∀ d < 16, hexDigit? (Nat.digitChar d) = some d := by decide

/-- Four hexadecimal digits stand for sixteen bits. -/
theorem read_hexDigits {u : Nat} (hu : u < 0x10000) (us : Units) (r : Text) :
    read (.hex us 4 0) (Units.hexDigits u ++ r) = read (.string (u :: us)) r := by
  have hmod : ∀ n, n % 16 < 16 := fun n => Nat.mod_lt n (by decide)
  have hvalue : (((0 * 16 + u / 4096 % 16) * 16 + u / 256 % 16) * 16 + u / 16 % 16) * 16 + u % 16 = u := by omega
  simp only [Units.hexDigits, List.cons_append, List.nil_append, read, hexDigit?_digitChar _ (hmod _),
    Nat.reduceLeDiff, Nat.reduceSub, if_false, if_true, Nat.le_refl]
  rw [hvalue]

theorem read_unescaped {c : Char} (hquote : c.toNat ≠ 0x22) (hslash : c.toNat ≠ 0x5C) (hcontrol : ¬ c.toNat < 0x20)
    (us : Units) (r : Text) : read (.string us) (c :: r) = read (.string (c.toNat :: us)) r := by
  have hc : c ≠ '"' := fun e => hquote (by rw [e]; rfl)
  have hc' : c ≠ '\\' := fun e => hslash (by rw [e]; rfl)
  rw [read, if_neg hc, if_neg hc', if_neg hcontrol]

/-- **A unit is read back**, however it is spelled. -/
theorem read_spell {u : Nat} (hu : u < 0x110000) (us : Units) (r : Text) :
    read (.string us) (Units.spell u ++ r) = read (.string (u :: us)) r := by
  by_cases hshort : u ∈ [0x22, 0x5C, 0x08, 0x09, 0x0A, 0x0C, 0x0D]
  · simp only [List.mem_cons, List.not_mem_nil, or_false] at hshort
    rcases hshort with rfl | rfl | rfl | rfl | rfl | rfl | rfl <;> rfl
  · simp only [List.mem_cons, List.not_mem_nil, or_false, not_or] at hshort
    obtain ⟨hquote, hslash, h8, h9, h10, h12, h13⟩ := hshort
    simp only [Units.spell, hquote, hslash, h8, h9, h10, h12, h13, if_false, Units.isHigh, Units.isLow,
      Bool.or_eq_true, Bool.and_eq_true, decide_eq_true_eq]
    split
    · rename_i hcoded
      exact read_hexDigits (by omega) us r
    · rename_i hplain
      have hvalid : u.isValidChar := by
        unfold Nat.isValidChar
        omega
      have hcode : (Char.ofNat u).toNat = u := by
        rw [Char.ofNat, dif_pos hvalid]
        rfl
      have hgo := read_unescaped (c := Char.ofNat u) (by omega) (by omega) (by omega) us r
      rwa [hcode] at hgo

theorem read_spelled : ∀ {vs : Units} (_ : vs.Spelled) (us : Units) (r : Text),
    read (.string us) (vs.flatMap Units.spell ++ r) = read (.string (vs.reverse ++ us)) r
  | [], _, _, _ => rfl
  | v :: vs, h, us, r => by
    obtain ⟨hv, hvs⟩ := List.forall_mem_cons.1 h
    rw [List.flatMap_cons, List.append_assoc, read_spell hv, read_spelled hvs, List.reverse_cons, List.append_assoc]
    rfl

namespace Reads

theorem quoted {us : Units} (hus : us.Spelled) (h : Reads r ts) :
    Reads (us.quoted ++ r) (string us :: ts) := by
  unfold Reads ofText? at h ⊢
  change read (.string []) (us.flatMap Units.spell ++ ['"'] ++ r) = _
  rw [List.append_assoc, read_spelled hus, List.append_nil]
  simp [read, h]

end Reads

end Token

/-! ## Values in a text -/

mutual

/-- A value that can be printed: its strings are made of characters, and the literals of its
numbers are numbers. -/
def Printable : Json → Prop
  | null      => True
  | bool _    => True
  | number t  => Token.isNumber t = true
  | string us => us.Spelled
  | array vs  => PrintableItems vs
  | object ms => PrintableMembers ms

def PrintableItems : List Json → Prop
  | []      => True
  | v :: vs => v.Printable ∧ PrintableItems vs

def PrintableMembers : List (Units × Json) → Prop
  | []             => True
  | (key, v) :: ms => key.Spelled ∧ v.Printable ∧ PrintableMembers ms

end

theorem printableItems_of_forall : ∀ {vs : List Json}, (∀ v ∈ vs, v.Printable) → PrintableItems vs
  | [], _ => trivial
  | _ :: _, h => ⟨(List.forall_mem_cons.1 h).1, printableItems_of_forall (List.forall_mem_cons.1 h).2⟩

mutual

/-- The tokens of a value. -/
def tokens : Json → List Token
  | null                  => [.null]
  | bool b                => [.bool b]
  | number t              => [.number t]
  | string us             => [.string us]
  | array []              => [.openBracket, .closeBracket]
  | array (v :: vs)       => .openBracket :: (v.tokens ++ itemTokens vs)
  | object []             => [.openBrace, .closeBrace]
  | object ((key, v) :: ms) => .openBrace :: .string key :: .colon :: (v.tokens ++ memberTokens ms)

/-- The tokens of the further items of an array, up to its end. -/
def itemTokens : List Json → List Token
  | []      => [.closeBracket]
  | v :: vs => .comma :: (v.tokens ++ itemTokens vs)

/-- The tokens of the further members of an object, up to its end. -/
def memberTokens : List (Units × Json) → List Token
  | []             => [.closeBrace]
  | (key, v) :: ms => .comma :: .string key :: .colon :: (v.tokens ++ memberTokens ms)

end

section Reads

open Token (Reads Stops)

variable {r : Text} {ts : List Token}

theorem stops_newLine (depth : Nat) (r : Text) : Stops (newLine depth ++ r) := .inl rfl

theorem stops_printItems (depth : Nat) (vs : List Json) (h : Stops r) : Stops (printItems depth vs ++ r) := by
  cases vs with
  | nil => rwa [printItems]
  | cons v vs =>
    rw [printItems]
    exact .inr rfl

theorem stops_printMembers (depth : Nat) (ms : List (Units × Json)) (h : Stops r) :
    Stops (printMembers depth ms ++ r) := by
  cases ms with
  | nil => rwa [printMembers]
  | cons m ms =>
    rw [printMembers]
    exact .inr rfl

/-- The key of a member, before its value. -/
theorem reads_key {key : Units} (hkey : key.Spelled) (h : Reads r ts) :
    Reads (key.quoted ++ ": " ++ r) (.string key :: .colon :: ts) := by
  rw [List.append_assoc]
  exact .quoted hkey (.punctuation rfl (.blank rfl h))

mutual

/-- **In the text of a value its tokens are found**, before any text in front of which a number
is over. -/
theorem reads_print : ∀ (v : Json) (depth : Nat) {r : Text} {ts : List Token}, v.Printable → Stops r → Reads r ts →
    Reads (v.print depth ++ r) (v.tokens ++ ts)
  | null, _, _, _, _, hr, h => .word (t := ("null" : Text)) rfl (List.all_eq_true.1 rfl) nofun hr h
  | bool true, _, _, _, _, hr, h => .word (t := ("true" : Text)) rfl (List.all_eq_true.1 rfl) nofun hr h
  | bool false, _, _, _, _, hr, h => .word (t := ("false" : Text)) rfl (List.all_eq_true.1 rfl) nofun hr h
  | number _, _, _, _, hv, hr, h => .number hv hr h
  | string _, _, _, _, hv, _, h => .quoted hv h
  | array [], _, _, _, _, _, h => .punctuation rfl (.punctuation rfl h)
  | array (v :: vs), depth, r, ts, ⟨hv, hvs⟩, _, h => by
    have hitems := reads_printItems vs depth hvs h
    have hstops := stops_printItems (depth + 1) vs (stops_newLine depth (']' :: r))
    simp only [print, tokens, List.append_assoc, List.cons_append, List.nil_append]
    exact .punctuation rfl (.newLine _ (reads_print v (depth + 1) hv hstops hitems))
  | object [], _, _, _, _, _, h => .punctuation rfl (.punctuation rfl h)
  | object ((key, v) :: ms), depth, r, ts, ⟨hkey, hv, hms⟩, _, h => by
    have hmembers := reads_printMembers ms depth hms h
    have hstops := stops_printMembers (depth + 1) ms (stops_newLine depth ('\x7d' :: r))
    have hvalue := reads_print v (depth + 1) hv hstops hmembers
    have hfirst := (reads_key hkey hvalue).newLine (depth + 1)
    simp only [print, tokens, List.append_assoc, List.cons_append, List.nil_append] at hfirst ⊢
    exact .punctuation rfl hfirst

theorem reads_printItems : ∀ (vs : List Json) (depth : Nat) {r : Text} {ts : List Token}, PrintableItems vs →
    Reads r ts → Reads (printItems (depth + 1) vs ++ (newLine depth ++ ']' :: r)) (itemTokens vs ++ ts)
  | [], depth, _, _, _, h => .newLine depth (.punctuation rfl h)
  | v :: vs, depth, r, ts, ⟨hv, hvs⟩, h => by
    have hitems := reads_printItems vs depth hvs h
    have hstops := stops_printItems (depth + 1) vs (stops_newLine depth (']' :: r))
    simp only [printItems, itemTokens, List.append_assoc, List.cons_append]
    exact .punctuation rfl (.newLine _ (reads_print v (depth + 1) hv hstops hitems))

theorem reads_printMembers : ∀ (ms : List (Units × Json)) (depth : Nat) {r : Text} {ts : List Token},
    PrintableMembers ms → Reads r ts →
    Reads (printMembers (depth + 1) ms ++ (newLine depth ++ '\x7d' :: r)) (memberTokens ms ++ ts)
  | [], depth, _, _, _, h => .newLine depth (.punctuation rfl h)
  | (key, v) :: ms, depth, r, ts, ⟨hkey, hv, hms⟩, h => by
    have hmembers := reads_printMembers ms depth hms h
    have hstops := stops_printMembers (depth + 1) ms (stops_newLine depth ('\x7d' :: r))
    have hvalue := reads_print v (depth + 1) hv hstops hmembers
    have hfirst := (reads_key hkey hvalue).newLine (depth + 1)
    simp only [printMembers, memberTokens, List.append_assoc, List.cons_append] at hfirst ⊢
    exact .punctuation rfl hfirst

end

end Reads

/-! ## Tokens put together -/

namespace Reader

theorem run_cons (r : Reader) (t : Token) (ts : List Token) : r.run (t :: ts) = (r.step t).bind (·.run ts) := by
  rw [run]
  cases r.step t <;> rfl

/-- A value is begun in the same way where an array might also end. -/
theorem run_item (v : Json) (stack : List Open) (ts : List Token) :
    (pending .item stack).run (v.tokens ++ ts) = (pending .value stack).run (v.tokens ++ ts) := by
  cases v with
  | null | bool | number | string => rfl
  | array vs => cases vs <;> rfl
  | object ms => cases ms <;> rfl

mutual

/-- **The tokens of a value are put together to the value.** -/
theorem run_tokens : ∀ (v : Json) (stack : List Open) (ts : List Token),
    (pending .value stack).run (v.tokens ++ ts) = (place v stack).bind (·.run ts)
  | null, _, ts => run_cons _ .null ts
  | bool b, _, ts => run_cons _ (.bool b) ts
  | number t, _, ts => run_cons _ (.number t) ts
  | string us, _, ts => run_cons _ (.string us) ts
  | array [], stack, ts => run_cons (pending .item (.array [] :: stack)) .closeBracket ts
  | array (v :: vs), stack, ts => by
    rw [tokens, List.cons_append, List.append_assoc]
    calc (pending .value stack).run (.openBracket :: (v.tokens ++ (itemTokens vs ++ ts)))
        = (pending .item (.array [] :: stack)).run (v.tokens ++ (itemTokens vs ++ ts)) := run_cons _ _ _
      _ = (pending .value (.array [] :: stack)).run (v.tokens ++ (itemTokens vs ++ ts)) := run_item _ _ _
      _ = (pending .next (.array [v] :: stack)).run (itemTokens vs ++ ts) := run_tokens v _ _
      _ = (place (array (v :: vs)) stack).bind (·.run ts) := run_itemTokens vs [v] stack ts
  | object [], stack, ts => run_cons (pending .firstKey (.object [] :: stack)) .closeBrace ts
  | object ((key, v) :: ms), stack, ts => by
    rw [tokens, List.cons_append, List.cons_append, List.cons_append, List.append_assoc]
    calc (pending .value stack).run (.openBrace :: .string key :: .colon :: (v.tokens ++ (memberTokens ms ++ ts)))
        = (pending .value (.member [] key :: stack)).run (v.tokens ++ (memberTokens ms ++ ts)) := rfl
      _ = (pending .next (.object [(key, v)] :: stack)).run (memberTokens ms ++ ts) := run_tokens v _ _
      _ = (place (object ((key, v) :: ms)) stack).bind (·.run ts) := run_memberTokens ms [(key, v)] stack ts

/-- The rest of an array whose first items are known, the latest first. -/
theorem run_itemTokens : ∀ (vs items : List Json) (outer : List Open) (ts : List Token),
    (pending .next (.array items :: outer)).run (itemTokens vs ++ ts) =
      (place (array (items.reverse ++ vs)) outer).bind (·.run ts)
  | [], items, outer, ts => by
    rw [List.append_nil]
    exact run_cons _ .closeBracket ts
  | v :: vs, items, outer, ts => by
    rw [itemTokens, List.cons_append, List.append_assoc]
    calc (pending .next (.array items :: outer)).run (.comma :: (v.tokens ++ (itemTokens vs ++ ts)))
        = (pending .value (.array items :: outer)).run (v.tokens ++ (itemTokens vs ++ ts)) := run_cons _ _ _
      _ = (pending .next (.array (v :: items) :: outer)).run (itemTokens vs ++ ts) := run_tokens v _ _
      _ = (place (array ((v :: items).reverse ++ vs)) outer).bind (·.run ts) := run_itemTokens vs _ outer ts
      _ = (place (array (items.reverse ++ v :: vs)) outer).bind (·.run ts) := by
        rw [List.reverse_cons, List.append_assoc, List.singleton_append]

/-- The rest of an object whose first members are known, the latest first. -/
theorem run_memberTokens : ∀ (ms members : List (Units × Json)) (outer : List Open) (ts : List Token),
    (pending .next (.object members :: outer)).run (memberTokens ms ++ ts) =
      (place (object (members.reverse ++ ms)) outer).bind (·.run ts)
  | [], members, outer, ts => by
    rw [List.append_nil]
    exact run_cons _ .closeBrace ts
  | (key, v) :: ms, members, outer, ts => by
    rw [memberTokens, List.cons_append, List.cons_append, List.cons_append, List.append_assoc]
    calc (pending .next (.object members :: outer)).run
          (.comma :: .string key :: .colon :: (v.tokens ++ (memberTokens ms ++ ts)))
        = (pending .value (.member members key :: outer)).run (v.tokens ++ (memberTokens ms ++ ts)) := rfl
      _ = (pending .next (.object ((key, v) :: members) :: outer)).run (memberTokens ms ++ ts) := run_tokens v _ _
      _ = (place (object (((key, v) :: members).reverse ++ ms)) outer).bind (·.run ts) :=
        run_memberTokens ms _ outer ts
      _ = (place (object (members.reverse ++ (key, v) :: ms)) outer).bind (·.run ts) := by
        rw [List.reverse_cons, List.append_assoc, List.singleton_append]

end

end Reader

/-- **A value that is printed is read back**, also if blanks follow. -/
theorem parse_pretty_append {v : Json} {r : Text} (hv : v.Printable) (hr : Token.Stops r) (h : Token.Reads r []) :
    parse (v.pretty ++ r) = some v := by
  have hread : Token.ofText? (v.pretty ++ r) = some (v.tokens ++ []) := reads_print v 0 hv hr h
  have hrun : (Reader.pending .value []).run (v.tokens ++ []) = some (.complete v) := Reader.run_tokens v [] []
  simp only [parse, hread, hrun]

theorem parse_pretty {v : Json} (hv : v.Printable) : parse v.pretty = some v := by
  have h := parse_pretty_append hv (r := []) trivial rfl
  rwa [List.append_nil] at h

end IppCode.Json
