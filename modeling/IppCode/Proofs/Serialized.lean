import Mathlib.Data.List.TakeWhile
import IppCode.Format
import IppCode.Proofs.Printed
/-!
# Serialized — records written as JSON are read back

Integers and texts are printed as values that stand for them (`word?_ofInt`, `text?_ofText`), and
the members of an object are found under their names (`fields?_object`).  So records whose numbers
fit a word come back as they were, whatever their texts are and however many there are
(`json_round_trip`).
-/
namespace IppCode

namespace Json

/-! ## Integers -/

open Numeral (FitsWord)

theorem isUnsigned_ofNat (n : Nat) : Token.isUnsigned (Numeral.ofNat n) = true := by
  obtain ⟨c, r, hn, hzero⟩ := Numeral.ofNat_cons n
  have hdigits : ∀ d ∈ c :: r, Token.isDigit d = true := hn ▸ Numeral.isDigit_of_mem_ofNat n
  rw [hn]
  unfold Token.isUnsigned
  split
  · rename_i h
    obtain ⟨rfl, rfl⟩ := List.cons.inj h
    obtain ⟨-, rfl⟩ := hzero rfl
    rfl
  · rw [List.takeWhile_eq_self_iff.2 hdigits, List.dropWhile_eq_nil_iff.2 hdigits]
    rfl

theorem isNumber_ofInt (n : Int) : Token.isNumber (Numeral.ofInt n) = true := by
  unfold Numeral.ofInt
  split
  · exact isUnsigned_ofNat n.natAbs
  · unfold Token.isNumber
    split
    · rename_i h
      exact absurd h Numeral.ofNat_ne_sign
    · exact isUnsigned_ofNat n.natAbs

/-- Zero is written without a sign. -/
theorem ofInt_ne_minus_zero (n : Int) : Numeral.ofInt n ≠ "-0" := by
  unfold Numeral.ofInt
  split
  · rename_i hneg
    intro h
    obtain ⟨c, r, hn, hzero⟩ := Numeral.ofNat_cons n.natAbs
    rw [hn] at h
    cases h
    have := (hzero rfl).1
    omega
  · exact Numeral.ofNat_ne_sign

theorem word?_ofInt {n : Int} (h : FitsWord n) : (ofInt n).word? = some n := by
  unfold ofInt word?
  simp only
  rw [if_neg (ofInt_ne_minus_zero n), Numeral.integer?_ofInt]
  simp [Option.filter, h]

/-! ## Texts -/

theorem spelled_ofText (t : Text) : (Units.ofText t).Spelled := by
  intro u hu
  obtain ⟨c, -, rfl⟩ := List.mem_map.1 hu
  rcases c.valid with h | ⟨-, h⟩
  · exact Nat.lt_trans h (by decide)
  · exact h

theorem text?_cons {u : Nat} {us : Units} (hhigh : Units.isHigh u = false) (hlow : Units.isLow u = false) :
    Units.text? (u :: us) = us.text?.map (Char.ofNat u :: ·) := by
  rw [Units.text?.eq_def]
  simp only [hhigh, hlow, Bool.false_eq_true, if_false]

/-- **A text has no halves of characters**, so its units are read back as they are. -/
theorem text?_ofText : ∀ t : Text, (Units.ofText t).text? = some t
  | [] => rfl
  | c :: t => by
    have hwhole : Units.isHigh c.toNat = false ∧ Units.isLow c.toNat = false := by
      have hvalid : c.toNat.isValidChar := c.valid
      unfold Nat.isValidChar at hvalid
      simp only [Units.isHigh, Units.isLow, Bool.and_eq_false_iff, decide_eq_false_iff_not]
      omega
    change Units.text? (c.toNat :: Units.ofText t) = some (c :: t)
    rw [text?_cons hwhole.1 hwhole.2, text?_ofText t, Char.ofNat_toNat, Option.map_some]

/-! ## Members of an object -/

theorem keyed?_named : ∀ ps : List (Text × Json), keyed? (ps.map fun p => named p.1 p.2) = some ps
  | []      => rfl
  | p :: ps => by
    rw [List.map_cons, named, keyed?, text?_ofText, keyed?_named ps]

theorem filter_key {p : Text × Json} : ∀ {ps : List (Text × Json)}, (ps.map Prod.fst).Nodup → p ∈ ps →
    (ps.filter fun m => m.1 == p.1) = [p]
  | q :: ps, hdistinct, hp => by
    obtain ⟨hnew, hrest⟩ := List.nodup_cons.1 hdistinct
    rcases List.mem_cons.1 hp with rfl | hp
    · have hnone : (ps.filter fun m => m.1 == p.1) = [] := by
        refine List.filter_eq_nil_iff.2 fun m hm hkey => hnew ?_
        rw [← eq_of_beq hkey]
        exact List.mem_map_of_mem hm
      rw [List.filter_cons_of_pos (by simp), hnone]
    · have hother : q.1 ≠ p.1 := fun e => hnew (e ▸ List.mem_map_of_mem hp)
      rw [List.filter_cons_of_neg (by simpa using hother), filter_key hrest hp]

theorem mapM_map_eq_some {α β γ : Type} {f : β → Option γ} {g : α → β} {h : α → γ} :
    ∀ {l : List α}, (∀ a ∈ l, f (g a) = some (h a)) → (l.map g).mapM f = some (l.map h)
  | [], _ => rfl
  | a :: l, hall => by
    obtain ⟨ha, hl⟩ := List.forall_mem_cons.1 hall
    rw [List.map_cons, List.mapM_cons, ha, mapM_map_eq_some hl]
    rfl

/-- **The members of an object are found under their names**, if these are different. -/
theorem fields?_object {ps : List (Text × Json)} (hdistinct : (ps.map Prod.fst).Nodup) :
    fields? (ps.map Prod.fst) (object (ps.map fun p => named p.1 p.2)) = some (ps.map fun p => some p.2) := by
  unfold fields?
  simp only [keyed?_named]
  refine mapM_map_eq_some fun p hp => ?_
  unfold member?
  rw [filter_key hdistinct hp]

/-! ## Records -/

theorem arg?_ofArg {a : Arg} (h : FitsWord a.slot) : arg? (ofArg a) = some a := by
  have hnames : (["slot", "type", "value"] : List Text).Nodup := by decide
  have hfields : fields? ["slot", "type", "value"] (ofArg a) =
      some [some (ofInt a.slot), some (ofText a.kind), some (ofText a.value)] :=
    @fields?_object [("slot", ofInt a.slot), ("type", ofText a.kind), ("value", ofText a.value)] hnames
  unfold arg?
  rw [hfields]
  simp [word?_ofInt h, ofText, text?, text?_ofText]

end Json

/-- The numbers of the record are 64-bit words. -/
def Record.FitsWords (r : Record) : Prop := Numeral.FitsWord r.order ∧ ∀ a ∈ r.args, Numeral.FitsWord a.slot

instance (r : Record) : Decidable r.FitsWords := inferInstanceAs (Decidable (_ ∧ _))

namespace Json

theorem record?_ofRecord {r : Record} (h : r.FitsWords) : record? (ofRecord r) = some r := by
  have hnames : (["order", "opcode", "args"] : List Text).Nodup := by decide
  have hfields : fields? ["order", "opcode", "args"] (ofRecord r) =
      some [some (ofInt r.order), some (ofText r.opcode), some (array (r.args.map ofArg))] :=
    @fields?_object [("order", ofInt r.order), ("opcode", ofText r.opcode), ("args", array (r.args.map ofArg))]
      hnames
  have hargs : (r.args.map ofArg).mapM arg? = some (r.args.map id) :=
    mapM_map_eq_some fun a ha => arg?_ofArg (h.2 a ha)
  unfold record?
  rw [hfields]
  simp [word?_ofInt h.1, ofText, text?, text?_ofText, args?, items?, hargs]

theorem records?_ofRecords {rs : List Record} (h : ∀ r ∈ rs, r.FitsWords) : records? (ofRecords rs) = some rs := by
  have hname : (["instructions"] : List Text).Nodup := by decide
  have hfields : fields? ["instructions"] (ofRecords rs) = some [some (array (rs.map ofRecord))] :=
    @fields?_object [("instructions", array (rs.map ofRecord))] hname
  have hrecords : (rs.map ofRecord).mapM record? = some (rs.map id) :=
    mapM_map_eq_some fun r hr => record?_ofRecord (h r hr)
  unfold records?
  rw [hfields]
  simp [items?, hrecords]

/-! ## The written text -/

theorem printable_ofArg (a : Arg) : (ofArg a).Printable :=
  ⟨spelled_ofText "slot", isNumber_ofInt a.slot, spelled_ofText "type", spelled_ofText a.kind,
    spelled_ofText "value", spelled_ofText a.value, trivial⟩

theorem printable_array {α : Type} {f : α → Json} (h : ∀ a, (f a).Printable) (l : List α) :
    (array (l.map f)).Printable :=
  printableItems_of_forall (List.forall_mem_map.2 fun a _ => h a)

theorem printable_ofRecord (r : Record) : (ofRecord r).Printable :=
  ⟨spelled_ofText "order", isNumber_ofInt r.order, spelled_ofText "opcode", spelled_ofText r.opcode,
    spelled_ofText "args", printable_array printable_ofArg r.args, trivial⟩

theorem printable_ofRecords (rs : List Record) : (ofRecords rs).Printable :=
  ⟨spelled_ofText "instructions", printable_array printable_ofRecord rs, trivial⟩

/-- Written records may be ended by a line feed, as the lines of a file are. -/
theorem readRecords_line {rs : List Record} (h : ∀ r ∈ rs, r.FitsWords) :
    readRecords (writeRecords rs ++ ['\n']) = some rs := by
  have hfeed : Token.Reads ['\n'] [] := .blank rfl rfl
  have hparse : parse (writeRecords rs ++ ['\n']) = some (ofRecords rs) :=
    parse_pretty_append (printable_ofRecords rs) (.inl rfl) hfeed
  rw [readRecords, hparse, Option.bind_some, records?_ofRecords h]

end Json

/-- **Records written as JSON are read back as they were**, if their numbers are 64-bit words.
Their texts may be any, and there may be any number of records and of arguments. -/
theorem Format.json_round_trip {rs : List Record} (h : ∀ r ∈ rs, r.FitsWords) :
    Format.json.read (Json.writeRecords rs) = .ok rs := by
  have hparse : Json.parse (Json.writeRecords rs) = some (Json.ofRecords rs) :=
    Json.parse_pretty (Json.printable_ofRecords rs)
  have hread : Json.readRecords (Json.writeRecords rs) = some rs := by
    rw [Json.readRecords, hparse, Option.bind_some, Json.records?_ofRecords h]
  simp only [Format.read, hread]

/-- Both ends of the word, and texts that are empty or full of escapes. -/
theorem Format.json_round_trip_extreme :
    let rs : List Record :=
      [⟨-0x8000000000000000, "\"\\/\n\x01", [⟨0x7FFFFFFFFFFFFFFF, "", ""⟩, ⟨-1, "é", "😀"⟩]⟩, ⟨0, "", []⟩]
    (∀ r ∈ rs, r.FitsWords) ∧ Format.json.read (Json.writeRecords rs) = .ok rs := by
  intro rs
  have h : ∀ r ∈ rs, r.FitsWords := by decide
  exact ⟨h, json_round_trip h⟩

end IppCode
