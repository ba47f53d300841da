import IppCode.Format
import IppCode.Proofs.Digits
import IppCode.Proofs.Outlines
import IppCode.Proofs.Traversal
import IppCode.Proofs.Trimming
import IppCode.Proofs.Verified
/-!
# Documents — which XML documents are programs, and which records they hold

An element holds an argument or a record, or something is wrong with it, and then the first thing
that is names the error (`arg_eq_error`, `record_eq_error`).  So a document is read iff its root is
that of a program and each element holds what it should (`reading_exact`); text outside of
arguments is not read (`records_outline`).
-/
namespace IppCode.Xml

/-! ## Arguments -/

/-- **The name of the arguments in a slot.** -/
def InSlot (name : Text) (slot : Int) : Prop :=
  ∃ k : Nat, 1 ≤ k ∧ k ≤ 3 ∧ name = "arg".toList ++ Numeral.ofNat k ∧ slot = k

/-- **The element is an argument**: it has the name of a slot, and nothing but text inside. -/
structure HoldsArg (e : Element) (a : Arg) : Prop where
  slot  : InSlot e.name a.slot
  flat  : e.elements = []
  kind  : a.kind = (e.attribute? "type").getD []
  value : Text.Trims isMargin e.text a.value

/-- **What is wrong with an element** that is no argument. -/
inductive ArgFault (e : Element) : StructureFault → Prop
  | name (hname : ∀ slot, ¬ InSlot e.name slot) : ArgFault e (.element e.name "instruction")
  | nested {slot : Int} {child : Element} (hname : InSlot e.name slot) (hchild : e.elements.head? = some child) :
      ArgFault e (.element child.name e.name)

variable {name : Text} {slot : Int} {e : Element} {a : Arg} {fault : StructureFault}

theorem slot?_eq_some : slot? name = some slot ↔ InSlot name slot := by
  have hone : "arg".toList ++ Numeral.ofNat 1 = "arg1" := by decide
  have htwo : "arg".toList ++ Numeral.ofNat 2 = "arg2" := by decide
  have hthree : "arg".toList ++ Numeral.ofNat 3 = "arg3" := by decide
  unfold slot?
  constructor
  · intro h
    split_ifs at h with h1 h2 h3
    · cases h
      exact ⟨1, by decide, by decide, h1.trans hone.symm, rfl⟩
    · cases h
      exact ⟨2, by decide, by decide, h2.trans htwo.symm, rfl⟩
    · cases h
      exact ⟨3, by decide, by decide, h3.trans hthree.symm, rfl⟩
  · rintro ⟨k, hlow, hhigh, rfl, rfl⟩
    obtain rfl | rfl | rfl : k = 1 ∨ k = 2 ∨ k = 3 := by omega
    · decide
    · decide
    · decide

theorem slot?_eq_none : slot? name = none ↔ ∀ slot, ¬ InSlot name slot := by
  simp only [Option.eq_none_iff_forall_ne_some, ne_eq, slot?_eq_some]

theorem arg_eq_ok : arg e = .ok a ↔ HoldsArg e a := by
  obtain ⟨slot, kind, value⟩ := a
  unfold arg
  constructor
  · intro h
    split at h
    · cases h
    · rename_i hslot
      split at h
      · cases h
      · rename_i hflat
        cases h
        exact ⟨slot?_eq_some.1 hslot, hflat, rfl, Text.trims_trim isMargin e.text⟩
  · rintro ⟨hslot, hflat, rfl, hvalue⟩
    obtain rfl := Text.trims_iff.1 hvalue
    simp only [slot?_eq_some.2 hslot, hflat]

theorem arg_eq_error : arg e = .error fault ↔ ArgFault e fault := by
  unfold arg
  constructor
  · intro h
    split at h
    · rename_i hslot
      cases h
      exact .name (slot?_eq_none.1 hslot)
    · rename_i hslot
      split at h
      · rename_i child rest hchildren
        cases h
        exact .nested (slot?_eq_some.1 hslot) (by rw [hchildren, List.head?_cons])
      · cases h
  · intro h
    cases h with
    | name hname => rw [slot?_eq_none.2 hname]
    | nested hname hchild =>
      obtain ⟨rest, hchildren⟩ := List.head?_eq_some_iff.1 hchild
      simp only [slot?_eq_some.2 hname, hchildren]

/-! ## Records -/

/-- **The order number as it is written**, with blanks around it. -/
def Orders (written : Text) (n : Int) : Prop :=
  ∃ w, Text.Trims Unicode.isWhiteSpace written w ∧ Numeral.SignedWord w n

/-- What is written where the order number should be; nothing if it is missing. -/
def Element.writtenOrder (e : Element) : Text := (e.attribute? "order").getD []

/-- Something is wrong with the element at a place. -/
def FaultyAt (Wrong : Element → StructureFault → Prop) (es : List Element) (k : Nat) (fault : StructureFault) : Prop :=
  ∃ e, es[k]? = some e ∧ Wrong e fault

/-- **The element is an instruction** and holds a record: its elements are the arguments. -/
structure HoldsRecord (e : Element) (r : Record) : Prop where
  name   : e.name = "instruction"
  order  : Orders e.writtenOrder r.order
  opcode : r.opcode = (e.attribute? "opcode").getD []
  args   : List.Forall₂ HoldsArg e.elements r.args

/-- **What is wrong with an element** that holds no record, the first thing in the document. -/
inductive RecordFault (e : Element) : StructureFault → Prop
  | name (hname : e.name ≠ "instruction") : RecordFault e (.element e.name "program")
  | order (hname : e.name = "instruction") (horder : ∀ n, ¬ Orders e.writtenOrder n) :
      RecordFault e (.order e.writtenOrder)
  | arg {n : Int} {k : Nat} {fault : StructureFault} (hname : e.name = "instruction") (horder : Orders e.writtenOrder n)
      (hfirst : FirstAt (FaultyAt ArgFault e.elements) k fault) : RecordFault e fault

variable {written : Text} {n : Int} {es : List Element} {r : Record}

theorem order?_eq_some : order? written = some n ↔ Orders written n := by
  unfold order? Orders
  rw [Numeral.signedWord?_eq_some]
  constructor
  · exact fun h => ⟨_, Text.trims_trim _ written, h⟩
  · rintro ⟨w, htrims, h⟩
    rwa [Text.trims_iff.1 htrims] at h

theorem order?_eq_none : order? written = none ↔ ∀ n, ¬ Orders written n := by
  simp only [Option.eq_none_iff_forall_ne_some, ne_eq, order?_eq_some]

theorem readAll_eq_mapM {α : Type} (read : Element → Except StructureFault α) :
    ∀ es : List Element, readAll read es = es.mapM read
  | []      => rfl
  | e :: es => by
    rw [mapM_cons_except, ← readAll_eq_mapM read es, readAll]
    cases read e with
    | error fault => rfl
    | ok a => cases readAll read es <;> rfl

theorem readAll_eq_ok {α : Type} {read : Element → Except StructureFault α} {Holds : Element → α → Prop}
    (h : ∀ {e : Element} {a : α}, read e = .ok a ↔ Holds e a) {as : List α} :
    readAll read es = .ok as ↔ List.Forall₂ Holds es as := by
  rw [readAll_eq_mapM, mapM_eq_ok]
  simp only [h]

theorem readAll_eq_error {α : Type} {read : Element → Except StructureFault α} {Wrong : Element → StructureFault → Prop}
    (h : ∀ {e : Element} {fault : StructureFault}, read e = .error fault ↔ Wrong e fault) :
    readAll read es = .error fault ↔ ∃ k, FirstAt (FaultyAt Wrong es) k fault := by
  rw [readAll_eq_mapM, mapM_eq_error]
  refine exists_congr fun k => FirstAt.congr fun k fault => ?_
  simp only [FailsAt, FaultyAt, h]

theorem record_eq_ok : record e = .ok r ↔ HoldsRecord e r := by
  obtain ⟨order, opcode, args⟩ := r
  unfold record
  constructor
  · intro h
    split at h
    · rename_i hname
      simp only at h
      split at h
      · cases h
      · rename_i horder
        split at h
        · cases h
        · rename_i hargs
          cases h
          exact ⟨hname, order?_eq_some.1 horder, rfl, (readAll_eq_ok arg_eq_ok).1 hargs⟩
    · cases h
  · rintro ⟨hname, horder, rfl, hargs⟩
    have horder := order?_eq_some.2 horder
    unfold Element.writtenOrder at horder
    simp only [hname, if_true, horder, (readAll_eq_ok arg_eq_ok).2 hargs]

theorem record_eq_error : record e = .error fault ↔ RecordFault e fault := by
  unfold record
  constructor
  · intro h
    split at h
    · rename_i hname
      simp only at h
      split at h
      · rename_i horder
        cases h
        exact .order hname (order?_eq_none.1 horder)
      · rename_i horder
        split at h
        · rename_i hargs
          cases h
          obtain ⟨k, hfirst⟩ := (readAll_eq_error arg_eq_error).1 hargs
          exact .arg hname (order?_eq_some.1 horder) hfirst
        · cases h
    · rename_i hname
      cases h
      exact .name hname
  · intro h
    cases h with
    | name hname => exact if_neg hname
    | order hname horder =>
      have horder := order?_eq_none.2 horder
      unfold Element.writtenOrder at horder ⊢
      simp only [hname, if_true, horder]
    | arg hname horder hfirst =>
      have horder := order?_eq_some.2 horder
      unfold Element.writtenOrder at horder
      simp only [hname, if_true, horder, (readAll_eq_error arg_eq_error).2 ⟨_, hfirst⟩]

/-! ## Programs -/

/-- **The element is the root of a program**: it has the name, and the language up to case. -/
structure IsRoot (e : Element) : Prop where
  name     : e.name = "program"
  language : ∃ l, e.attribute? "language" = some l ∧ Text.sameLetters l language = true

/-- **What is wrong with a document**, the first thing in it: the root, or else an element inside. -/
inductive DocumentFault (root : Element) : StructureFault → Prop
  | root (hroot : ¬ IsRoot root) : DocumentFault root (.root root.name)
  | inside {k : Nat} {fault : StructureFault} (hroot : IsRoot root)
      (hfirst : FirstAt (FaultyAt RecordFault root.elements) k fault) : DocumentFault root fault

variable {root : Element} {rs : List Record}

theorem isProgram_iff : isProgram root = true ↔ IsRoot root := by
  unfold isProgram
  rw [Bool.and_eq_true, decide_eq_true_iff]
  constructor
  · rintro ⟨hname, hlanguage⟩
    split at hlanguage
    · rename_i l hl
      exact ⟨hname, l, hl, hlanguage⟩
    · cases hlanguage
  · rintro ⟨hname, l, hl, hlanguage⟩
    rw [hl]
    exact ⟨hname, hlanguage⟩

theorem records_eq_ok : records root = .ok rs ↔ IsRoot root ∧ List.Forall₂ HoldsRecord root.elements rs := by
  unfold records
  rw [← isProgram_iff, ← readAll_eq_ok record_eq_ok]
  cases isProgram root <;> simp

theorem records_eq_error : records root = .error fault ↔ DocumentFault root fault := by
  unfold records
  constructor
  · intro h
    split at h
    · rename_i hroot
      obtain ⟨k, hfirst⟩ := (readAll_eq_error record_eq_error).1 h
      exact .inside (isProgram_iff.1 hroot) hfirst
    · rename_i hroot
      cases h
      exact .root fun h => hroot (isProgram_iff.2 h)
  · intro h
    cases h with
    | root hroot => exact if_neg fun h => hroot (isProgram_iff.1 h)
    | inside hroot hfirst =>
      rw [if_pos (isProgram_iff.2 hroot)]
      exact (readAll_eq_error record_eq_error).2 ⟨_, hfirst⟩

theorem InSlot.bounds (h : InSlot name slot) : 1 ≤ slot ∧ slot ≤ 3 := by
  obtain ⟨k, hlow, hhigh, -, rfl⟩ := h
  omega

/-- The arguments of the records are in slots that the verifier knows. -/
theorem slot_of_records (h : records root = .ok rs) {r : Record} (hr : r ∈ rs) {a : Arg} (ha : a ∈ r.args) :
    1 ≤ a.slot ∧ a.slot ≤ 3 := by
  obtain ⟨e, he⟩ := exists_forall₂_iff.1 ⟨_, (records_eq_ok.1 h).2.flip⟩ r hr
  obtain ⟨e', he'⟩ := exists_forall₂_iff.1 ⟨_, he.args.flip⟩ a ha
  exact he'.slot.bounds

/-! ## Outlines -/

theorem arg_outline (e : Element) : arg (e.outline 0) = arg e := by
  unfold arg
  rw [Element.elements_outline, Element.text_outline]
  cases e.elements <;> rfl

theorem readAll_map {α : Type} {read : Element → Except StructureFault α} {f : Element → Element}
    (h : ∀ e, read (f e) = read e) (es : List Element) : readAll read (es.map f) = readAll read es := by
  have hsame : read ∘ f = read := funext h
  rw [readAll_eq_mapM, readAll_eq_mapM, List.mapM_map, hsame]

theorem record_outline (e : Element) : record (e.outline 1) = record e := by
  unfold record
  rw [Element.elements_outline, readAll_map arg_outline]
  rfl

/-- **Text outside of arguments is not read.** -/
theorem records_outline (root : Element) : records (root.outline 2) = records root := by
  unfold records
  rw [Element.elements_outline, readAll_map record_outline]
  rfl

/-! ## Reading documents -/

variable {t : Text}

/-- What is not refused as malformed is a document. -/
theorem exists_parse (h : Format.xml.read t ≠ .error (.xml t)) : ∃ root, parse t = some root := by
  cases hparse : parse t with
  | none => exact absurd (by simp only [Format.read, hparse]) h
  | some root => exact ⟨root, rfl⟩

theorem read_eq_ok (ht : parse t = some root) : Format.xml.read t = .ok rs ↔ records root = .ok rs := by
  simp only [Format.read, ht]
  cases records root <;> simp

theorem read_eq_error {e : ReadError} (ht : parse t = some root) :
    Format.xml.read t = .error e ↔ ∃ fault, records root = .error fault ∧ e = .document fault := by
  simp only [Format.read, ht]
  cases records root <;> simp [eq_comm]

theorem exists_read_iff (ht : parse t = some root) : (∃ rs, Format.xml.read t = .ok rs) ↔
    IsRoot root ∧ ∀ i ∈ root.elements, i.name = "instruction" ∧ (∃ n, Orders i.writtenOrder n) ∧
      ∀ a ∈ i.elements, (∃ slot, InSlot a.name slot) ∧ a.elements = [] := by
  have harg (a : Element) : (∃ x, HoldsArg a x) ↔ (∃ slot, InSlot a.name slot) ∧ a.elements = [] := by
    constructor
    · rintro ⟨x, hx⟩
      exact ⟨⟨x.slot, hx.slot⟩, hx.flat⟩
    · rintro ⟨⟨slot, hslot⟩, hflat⟩
      exact ⟨⟨slot, _, _⟩, hslot, hflat, rfl, Text.trims_trim isMargin a.text⟩
  have hrecord (i : Element) : (∃ r, HoldsRecord i r) ↔ i.name = "instruction" ∧ (∃ n, Orders i.writtenOrder n) ∧
      ∀ a ∈ i.elements, (∃ slot, InSlot a.name slot) ∧ a.elements = [] := by
    simp only [← harg, ← exists_forall₂_iff]
    constructor
    · rintro ⟨r, hr⟩
      exact ⟨hr.name, ⟨r.order, hr.order⟩, r.args, hr.args⟩
    · rintro ⟨hname, ⟨n, horder⟩, args, hargs⟩
      exact ⟨⟨n, _, args⟩, hname, horder, rfl, hargs⟩
  simp only [read_eq_ok ht, records_eq_ok, exists_and_left, exists_forall₂_iff, hrecord]

/-- **Exactly the documents of the format are read.**  The root has to be that of a program, the
elements inside have to be instructions with order numbers, and the elements inside of those have to
have the names of slots and no elements inside.  The records are those that the elements hold, one
for each, and the verifier knows all their slots; if there are none, the first thing in the document
that is wrong says why.  Comments, processing instructions and text outside of arguments make no
difference, nor does what cuts the text of an argument into pieces. -/
theorem reading_exact (ht : parse t = some root) :
    ((∃ rs, Format.xml.read t = .ok rs) ↔
      IsRoot root ∧ ∀ i ∈ root.elements, i.name = "instruction" ∧ (∃ n, Orders i.writtenOrder n) ∧
        ∀ a ∈ i.elements, (∃ slot, InSlot a.name slot) ∧ a.elements = []) ∧
    (∀ rs, Format.xml.read t = .ok rs ↔ IsRoot root ∧ List.Forall₂ HoldsRecord root.elements rs) ∧
    (∀ rs, Format.xml.read t = .ok rs → ∀ e ∈ verify rs, ∀ slot, e.fault ≠ .slotOutOfRange slot) ∧
    (∀ e, Format.xml.read t = .error e ↔ ∃ fault, DocumentFault root fault ∧ e = .document fault) ∧
    (∀ e, Format.xml.read t = .error e → e.kind = .sourceStructure) ∧
    ∀ u root', parse u = some root' →
      (pieces? u).map (Piece.substance 2 0) = (pieces? t).map (Piece.substance 2 0) →
      Format.xml.read u = Format.xml.read t := by
  refine ⟨exists_read_iff ht, fun rs => ?_, fun rs hrs e he slot hslot => ?_, fun e => ?_, fun e he => ?_,
    fun u root' hu hsame => ?_⟩
  · rw [read_eq_ok ht, records_eq_ok]
  · obtain ⟨r, hr, a, ha, rfl, hout⟩ := exists_arg_of_slotOutOfRange he hslot
    have hbounds := slot_of_records ((read_eq_ok ht).1 hrs) hr ha
    omega
  · simp only [read_eq_error ht, records_eq_error]
  · obtain ⟨fault, -, rfl⟩ := (read_eq_error ht).1 he
    rfl
  · have hroots : records root' = records root := by
      rw [← records_outline root', outline_eq_of_parse hu ht hsame, records_outline]
    simp only [Format.read, ht, hu, hroots]

/-- A program of one instruction; and a document in which two things are wrong, with and without a
comment, an instruction and text that make no difference. -/
theorem reading_exact_of_wrong :
    let t : Text := "<program language='ippCODE24'><instruction order=' +7'><arg2>\n4<!--a-->2</arg2></instruction></program>"
    let rs : List Record := [⟨7, "", [⟨2, "", "42"⟩]⟩]
    let wrong : Text := "<program language='IPPcode24'><a/><instruction/></program>"
    let same : Text := "<program language='IPPcode24'><!--b--><a/>c<instruction/><?d?></program>"
    let e : ReadError := .document (.element "a" "program")
    Format.xml.read t = .ok rs ∧ (∀ e ∈ verify rs, ∀ slot, e.fault ≠ .slotOutOfRange slot) ∧
      (∃ root, parse t = some root ∧ List.Forall₂ HoldsRecord root.elements rs) ∧
      Format.xml.read wrong = .error e ∧ e.kind = .sourceStructure ∧ Format.xml.read same = .error e ∧
      ∃ root, parse wrong = some root ∧ DocumentFault root (.element "a" "program") := by
  intro t rs wrong same e
  have hread : Format.xml.read t = .ok rs := by decide +kernel
  have hwrong : Format.xml.read wrong = .error e := by decide +kernel
  have hpieces : (pieces? wrong).map (Piece.substance 2 0) =
      some [.opening "program language='IPPcode24'", .opening "a/", .opening "instruction/", .closing "program"] := by
    decide +kernel
  have hpieces' : (pieces? same).map (Piece.substance 2 0) =
      some [.opening "program language='IPPcode24'", .opening "a/", .opening "instruction/", .closing "program"] := by
    decide +kernel
  obtain ⟨root, ht⟩ : ∃ root, parse t = some root := exists_parse fun h => by
    rw [hread] at h
    cases h
  obtain ⟨faulty, hfaulty⟩ : ∃ root, parse wrong = some root := exists_parse fun h => by
    rw [hwrong] at h
    exact ReadError.noConfusion (Except.error.inj h)
  obtain ⟨faulty', hfaulty'⟩ : ∃ root, parse same = some root := Option.isSome_iff_exists.1 (by decide +kernel)
  obtain ⟨-, hrecords, hslots, -⟩ := reading_exact ht
  obtain ⟨-, -, -, hfirst, hkind, hcongr⟩ := reading_exact hfaulty
  obtain ⟨fault, hfault, he⟩ := (hfirst e).1 hwrong
  obtain rfl : StructureFault.element "a" "program" = fault := ReadError.document.inj he
  exact ⟨hread, hslots rs hread, ⟨root, ht, ((hrecords rs).1 hread).2⟩, hwrong, hkind e hwrong,
    (hcongr same faulty' hfaulty' (hpieces'.trans hpieces.symm)).trans hwrong, faulty, hfaulty, hfault⟩

end IppCode.Xml
