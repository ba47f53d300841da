import IppCode.Proofs.Assembled
import IppCode.Proofs.Commands
import IppCode.Proofs.Effects
/-!
# ExitCodes — what a run shows of the program

A run goes through stages: the text is read, its records are verified and bound, the input is
opened, and the program runs.  `Comes` has the exit code and the output for each way in which
this can come out, one stage failing first or none.  A run is reported with the code and the
output of that one case (`run_reports`), and since all errors have codes above those that
programs may exit with, such a code says that the program has ended itself (`Exits`).
-/
namespace IppCode

namespace Verify

theorem kind_of_mem_recordErrors : ∀ {seen : List (Int × Nat)} {k : Nat} {rs : List Record} {e : VerifyError},
    e ∈ recordErrors seen k rs → e.kind = .sourceStructure
  | _, _, [], _, h => absurd h List.not_mem_nil
  | _, _, r :: rs, e, h => by
    rw [recordErrors] at h
    rcases List.mem_append.1 h with hopcode | horder
    · split at hopcode
      · cases List.mem_singleton.1 hopcode
        rfl
      · exact absurd hopcode List.not_mem_nil
    · split at horder
      · rcases List.mem_cons.1 horder with rfl | hrest
        · rfl
        · exact kind_of_mem_recordErrors hrest
      · split at horder
        · rcases List.mem_cons.1 horder with rfl | hrest
          · rfl
          · exact kind_of_mem_recordErrors hrest
        · exact kind_of_mem_recordErrors horder

theorem kind_of_mem_slotFaults (k : Nat) (order : Int) : ∀ {used slots : List Int} {fault : VerifyFault},
    fault ∈ slotFaults used slots → (⟨k, order, fault⟩ : VerifyError).kind = .sourceStructure
  | _, [], _, h => absurd h List.not_mem_nil
  | _, s :: slots, fault, h => by
    rw [slotFaults] at h
    split at h
    · rcases List.mem_cons.1 h with rfl | hrest
      · rfl
      · exact kind_of_mem_slotFaults k order hrest
    · split at h
      · rcases List.mem_cons.1 h with rfl | hrest
        · rfl
        · exact kind_of_mem_slotFaults k order hrest
      · exact kind_of_mem_slotFaults k order h

theorem kind_of_mem_missingFaults (k : Nat) (order : Int) {slots : List Int} {fault : VerifyFault}
    (h : fault ∈ missingFaults slots) : (⟨k, order, fault⟩ : VerifyError).kind = .sourceStructure := by
  unfold missingFaults at h
  split at h
  · obtain ⟨s, -, rfl⟩ := List.mem_map.1 h
    rfl
  · exact absurd h List.not_mem_nil

theorem kind_of_mem_argumentErrors : ∀ {k : Nat} {rs : List Record} {e : VerifyError},
    e ∈ argumentErrors k rs → e.kind = .sourceStructure
  | _, [], _, h => absurd h List.not_mem_nil
  | k, r :: rs, e, h => by
    rw [argumentErrors] at h
    rcases List.mem_append.1 h with hrecord | hrest
    · obtain ⟨fault, hfault, rfl⟩ := List.mem_map.1 hrecord
      rcases List.mem_append.1 hfault with hslot | hmissing
      · exact kind_of_mem_slotFaults k r.order hslot
      · exact kind_of_mem_missingFaults k r.order hmissing
    · exact kind_of_mem_argumentErrors hrest

theorem kind_of_mem_labelErrors {rs : List Record} {e : VerifyError} (h : e ∈ labelErrors rs) : e.kind = .semantic := by
  obtain ⟨label, hfault⟩ := fault_of_mem_repeatedLabels h
  unfold VerifyError.kind
  rw [hfault]

variable {rs : List Record} {first : VerifyError} {rest : List VerifyError}

/-- **The first error is of a record or an argument if there is any such error**, and of a label
otherwise. -/
theorem kind_of_verify_cons (h : verify rs = first :: rest) :
    (recordErrors [] 0 rs ++ argumentErrors 0 rs ≠ [] ∧ first.kind = .sourceStructure) ∨
    (recordErrors [] 0 rs ++ argumentErrors 0 rs = [] ∧ labelErrors rs ≠ [] ∧ first.kind = .semantic) := by
  unfold verify at h
  rcases List.append_eq_cons_iff.1 h with ⟨hshape, hlabels⟩ | ⟨shape, hshape, -⟩
  · refine .inr ⟨hshape, ?_, kind_of_mem_labelErrors (by rw [hlabels]; exact List.mem_cons_self)⟩
    rw [hlabels]
    exact List.cons_ne_nil first rest
  · have hfirst : first ∈ recordErrors [] 0 rs ++ argumentErrors 0 rs := by
      rw [hshape]
      exact List.mem_cons_self
    refine .inl ⟨List.ne_nil_of_mem hfirst, ?_⟩
    rcases List.mem_append.1 hfirst with hrecord | hargument
    · exact kind_of_mem_recordErrors hrecord
    · exact kind_of_mem_argumentErrors hargument

theorem exists_cons_of_malformed (h : recordErrors [] 0 rs ++ argumentErrors 0 rs ≠ []) :
    ∃ first rest, verify rs = first :: rest ∧ first.kind = .sourceStructure := by
  obtain ⟨first, rest, hverify⟩ := List.exists_cons_of_ne_nil (List.append_ne_nil_of_left_ne_nil h (labelErrors rs))
  refine ⟨first, rest, hverify, ?_⟩
  rcases kind_of_verify_cons hverify with ⟨-, hkind⟩ | ⟨hshape, -, -⟩
  · exact hkind
  · exact absurd hshape h

theorem exists_cons_of_clashing (h : recordErrors [] 0 rs ++ argumentErrors 0 rs = []) (hlabels : labelErrors rs ≠ []) :
    ∃ first rest, verify rs = first :: rest ∧ first.kind = .semantic := by
  obtain ⟨first, rest, hverify⟩ := List.exists_cons_of_ne_nil (List.append_ne_nil_of_right_ne_nil _ hlabels)
  refine ⟨first, rest, hverify, ?_⟩
  rcases kind_of_verify_cons hverify with ⟨herrors, -⟩ | ⟨-, -, hkind⟩
  · exact absurd h herrors
  · exact hkind

end Verify

/-! ## Ending -/

namespace Compute

theorem exitCode_eq_ok {v : Int64} {code : Fin 10} : exitCode v = .ok code ↔ v.toInt = (code : Nat) := by
  unfold exitCode
  split
  · rename_i hrange
    rw [Except.ok.injEq, Fin.ext_iff]
    dsimp only
    omega
  · rename_i hrange
    simp only [reduceCtorEq, false_iff]
    intro hcode
    have hlt := code.isLt
    omega

end Compute

namespace Machine

variable {m : Machine} {s t : State}

/-- **The program ends itself here**: the instruction that comes next is carried out, and is one
to exit with this number. -/
def Exits (m : Machine) (s : State) (n : Nat) : Prop :=
  ∃ i v, m.code[s.ip]? = some i ∧ i.opcode = .exit ∧ m.exhausted? s = none ∧ s.int i 0 = .ok v ∧ v.toInt = n

theorem perform_exit_eq_ok {i : Instruction} {code : Fin 10} (hop : i.opcode = .exit) :
    m.perform i s = .ok (.exit code) t ↔ ∃ v, s.int i 0 = .ok v ∧ v.toInt = (code : Nat) ∧ t = s := by
  obtain ⟨opcode, order, args⟩ := i
  cases hop
  change (Action.look _ >>= _) s = _ ↔ _
  rw [Action.look_bind_eq_ok]
  constructor
  · rintro ⟨found, hfound, hexit⟩
    cases hexit
    obtain ⟨v, hv, hcode⟩ := except_bind_eq_ok.1 hfound
    exact ⟨v, hv, Compute.exitCode_eq_ok.1 hcode, rfl⟩
  · rintro ⟨v, hv, hcode, rfl⟩
    exact ⟨code, except_bind_eq_ok.2 ⟨v, hv, Compute.exitCode_eq_ok.2 hcode⟩, rfl⟩

theorem exits_of_step {code : Fin 10} (h : m.step s = (t, .ended (.exited code))) : m.Exits s code := by
  unfold step at h
  split at h
  · cases h
  · rename_i i hi
    split at h
    · cases h
    · rename_i hlimit
      split at h
      · rename_i flow u hperform
        cases flow with
        | next => cases h
        | jump target => cases h
        | exit found =>
          cases h
          -- Only the operation to exit sends the run there.
          cases effect_of_perform hperform with
          | exited hop =>
            obtain ⟨v, hv, hcode, -⟩ := (perform_exit_eq_ok hop).1 hperform
            exact ⟨i, v, hi, hop, hlimit, hv, hcode⟩
      · cases h

theorem step_of_exits {code : Fin 10} (h : m.Exits s code) : m.step s = (s.counted, .ended (.exited code)) := by
  obtain ⟨i, v, hi, hop, hlimit, hv, hcode⟩ := h
  exact step_of_perform hi hlimit ((perform_exit_eq_ok hop).2 ⟨v, hv, hcode, rfl⟩)

end Machine

namespace Cli

section Comes

variable {env : Environment} {o : RunOptions} {t : Text} {f : Format} {m : Machine} {input : Input}
  {code steps : Nat} {out : Text} {r : Report}

/-- **What a run of a text comes to**: the exit code and what is on standard output, one case
for each stage that can be the first to fail, and two for a program that ends. -/
inductive Comes (env : Environment) (o : RunOptions) (t : Text) (f : Format) : Nat → Text → Prop
  | unread {e : ReadError} (hread : f.read t = .error e) : Comes env o t f e.kind.exitCode []
  | malformed {rs : List Record} (hread : f.read t = .ok rs)
      (herrors : Verify.recordErrors [] 0 rs ++ Verify.argumentErrors 0 rs ≠ []) : Comes env o t f 32 []
  /-- There are only labels that are defined twice. -/
  | clashing {rs : List Record} (hread : f.read t = .ok rs)
      (hshape : Verify.recordErrors [] 0 rs ++ Verify.argumentErrors 0 rs = [])
      (hlabels : Verify.labelErrors rs ≠ []) : Comes env o t f 52 []
  | unbound {rs : List Record} {e : BindError} (hread : f.read t = .ok rs) (hverify : verify rs = [])
      (hbind : Program.ofRecords rs = .error e) : Comes env o t f e.kind.exitCode []
  | unopened {p : Program} {path why : Text} (hload : Program.load f t = .ok p) (hinput : o.input = some path)
      (hopen : env.file path = .unreadable false why) : Comes env o t f 11 []
  | failed {m : Machine} {input : Input} {s : State} {e : RuntimeError} (hstarts : Starts env o m input)
      (hrun : m.Ends (.start input) s (.failed e)) : Comes env o t f e.kind.exitCode s.log.output
  | exited {m : Machine} {input : Input} {s : State} {n : Fin 10} (hstarts : Starts env o m input)
      (hrun : m.Ends (.start input) s (.ended (.exited n))) : Comes env o t f n s.log.output
  | completed {m : Machine} {input : Input} {s : State} (hstarts : Starts env o m input)
      (hrun : m.Ends (.start input) s (.ended .completed)) : Comes env o t f 0 s.log.output

/-! ## Before the program starts -/

theorem comes_of_load_error {e : LoadError} (h : Program.load f t = .error e) : Comes env o t f e.kind.exitCode [] := by
  rcases Program.load_eq_error.1 h with ⟨why, hread, rfl⟩ | ⟨rs, hread, ⟨first, rest, hverify, rfl⟩ |
    ⟨hverify, why, hbind, rfl⟩⟩
  · exact .unread hread
  · rcases Verify.kind_of_verify_cons hverify with ⟨herrors, hkind⟩ | ⟨hshape, hlabels, hkind⟩
    · rw [LoadError.kind, hkind]
      exact .malformed hread herrors
    · rw [LoadError.kind, hkind]
      exact .clashing hread hshape hlabels
  · exact .unbound hread hverify hbind

theorem exists_run_of_load_error {e : LoadError} (hsource : runSource env o = .ok (t, f))
    (h : Program.load f t = .error e) :
    ∃ n r, r.code = e.kind.exitCode ∧ r.stdout = [] ∧ ∀ steps, n ≤ steps → run steps env o = some r := by
  have hsetup := runSetup_of_load_error hsource (load_eq_error.2 ⟨e, h, rfl⟩)
  exact ⟨0, _, rfl, rfl, fun _ _ => run_of_setup_error hsetup⟩

theorem runInput_eq_error : runInput env o = .error r ↔ ∃ path why, o.input = some path ∧
    env.file path = .unreadable false why ∧
    r = .failure .inputFile ("cannot open '" ++ path ++ "': " ++ why) := by
  unfold runInput Environment.openInput
  cases o.input with
  | none => simp
  | some path =>
    cases hfile : env.file path with
    | contents bytes => simp [hfile]
    | unreadable opens why => cases opens <;> simp [hfile, eq_comm]

/-! ## After it has started -/

/-- A program that has come to its end is reported from then on. -/
theorem exists_run_of_ends {s : State} {st : Status} (hstarts : Starts env o m input)
    (h : m.Ends (.start input) s st) (hr : reportOf s st = some r) :
    ∃ n r', r'.code = r.code ∧ r'.stdout = r.stdout ∧ ∀ steps, n ≤ steps → run steps env o = some r' := by
  obtain ⟨n, hrun, hst⟩ := h
  refine ⟨n, r, rfl, rfl, fun steps hle => ?_⟩
  rw [run_of_starts hstarts, Machine.run_of_le hle hrun hst]
  exact hr

/-! ## Every report is one of the cases, and every case is reported -/

theorem comes_of_run (hsource : runSource env o = .ok (t, f)) (h : run steps env o = some r) :
    Comes env o t f r.code r.stdout := by
  cases hload : Program.load f t with
  | error e =>
    rw [run_of_setup_error (runSetup_of_load_error hsource (load_eq_error.2 ⟨e, hload, rfl⟩))] at h
    cases h
    exact comes_of_load_error hload
  | ok p =>
    cases hinput : runInput env o with
    | error r' =>
      obtain ⟨path, why, hpath, hopen, rfl⟩ := runInput_eq_error.1 hinput
      rw [run_of_setup_error (runSetup_of_input_error hsource hload hinput)] at h
      cases h
      exact .unopened hload hpath hopen
    | ok input =>
      obtain ⟨m, hstarts⟩ := exists_starts hsource hload hinput
      rw [run_of_starts hstarts] at h
      rcases hrun : m.run steps (.start input) with ⟨s, st⟩
      rw [hrun] at h
      cases st with
      | running => cases h
      | failed why =>
        cases h
        exact .failed hstarts ⟨steps, hrun, nofun⟩
      | ended how =>
        cases h
        cases how with
        | completed => exact .completed hstarts ⟨steps, hrun, nofun⟩
        | exited code => exact .exited hstarts ⟨steps, hrun, nofun⟩

theorem exists_run_of_comes (hsource : runSource env o = .ok (t, f)) (h : Comes env o t f code out) :
    ∃ n r, r.code = code ∧ r.stdout = out ∧ ∀ steps, n ≤ steps → run steps env o = some r := by
  cases h with
  | unread hread => exact exists_run_of_load_error hsource (Program.load_eq_error.2 (.inl ⟨_, hread, rfl⟩))
  | malformed hread herrors =>
    obtain ⟨first, rest, hverify, hkind⟩ := Verify.exists_cons_of_malformed herrors
    have hload := Program.load_eq_error.2 (.inr ⟨_, hread, .inl ⟨first, rest, hverify, rfl⟩⟩)
    have hrun := exists_run_of_load_error hsource hload
    rwa [LoadError.kind, hkind] at hrun
  | clashing hread hshape hlabels =>
    obtain ⟨first, rest, hverify, hkind⟩ := Verify.exists_cons_of_clashing hshape hlabels
    have hload := Program.load_eq_error.2 (.inr ⟨_, hread, .inl ⟨first, rest, hverify, rfl⟩⟩)
    have hrun := exists_run_of_load_error hsource hload
    rwa [LoadError.kind, hkind] at hrun
  | unbound hread hverify hbind =>
    exact exists_run_of_load_error hsource (Program.load_eq_error.2 (.inr ⟨_, hread, .inr ⟨hverify, _, hbind, rfl⟩⟩))
  | unopened hload hinput hopen =>
    have hfails := runInput_eq_error.2 ⟨_, _, hinput, hopen, rfl⟩
    exact ⟨0, _, rfl, rfl, fun _ _ => run_of_setup_error (runSetup_of_input_error hsource hload hfails)⟩
  | failed hstarts hrun => exact exists_run_of_ends hstarts hrun rfl
  | exited hstarts hrun => exact exists_run_of_ends hstarts hrun rfl
  | completed hstarts hrun => exact exists_run_of_ends hstarts hrun rfl

/-- **A code that programs may exit with says that the program has**, since those of errors are
greater. -/
theorem exits_of_comes (h : Comes env o t f code out) (hpos : 1 ≤ code) (hle : code ≤ 9) : ∃ m input k s,
    Starts env o m input ∧ m.run k (.start input) = (s, .running) ∧ m.Exits s code := by
  have herror (kind : ErrorKind) : ¬ kind.exitCode ≤ 9 := Nat.not_le.2 kind.nine_lt_exitCode
  cases h with
  | exited hstarts hrun =>
    obtain ⟨k, u, hk, hstep⟩ := hrun.last
    exact ⟨_, _, k, u, hstarts, hk, Machine.exits_of_step hstep⟩
  | completed => omega
  | malformed | clashing | unopened => omega
  | unread | unbound | failed => exact absurd hle (herror _)

theorem comes_of_exits {k : Nat} {s : State} (hle : code ≤ 9) (hstarts : Starts env o m input)
    (hrun : m.run k (.start input) = (s, .running)) (h : m.Exits s code) : ∃ out, Comes env o t f code out := by
  have hlast : m.Exits s (⟨code, Nat.lt_succ_of_le hle⟩ : Fin 10) := h
  have hstep := Machine.step_of_exits hlast
  exact ⟨_, .exited hstarts (Machine.ends_of_last hrun hstep nofun)⟩

end Comes

/-- **A run is reported as what it comes to.**  Let the arguments be those of a run whose source can
be read.  Whenever the run is reported, the exit code and the output are those of one of the
cases of `Comes`; and if one of these is the case, then from some number of steps on there is
one report, with its code and its output.  So the code is one from 1 to 9 iff the program has
been started and comes to an instruction to exit with this number. -/
theorem run_reports {args : List Text} {o : RunOptions} {t : Text} {f : Format} (env : Environment)
    (hargs : runOptions ⟨none, none, none, none⟩ args = .ok o) (hsource : runSource env o = .ok (t, f)) :
    (∀ steps r, report steps env ("run" :: args) = some r → Comes env o t f r.code r.stdout) ∧
    (∀ code out, Comes env o t f code out → ∃ n r, r.code = code ∧ r.stdout = out ∧
      ∀ steps, n ≤ steps → report steps env ("run" :: args) = some r) ∧
    ∀ code, 1 ≤ code → code ≤ 9 →
      ((∃ steps r, report steps env ("run" :: args) = some r ∧ r.code = code) ↔
        ∃ m input k s, Starts env o m input ∧ m.run k (.start input) = (s, .running) ∧ m.Exits s code) := by
  have hreport (steps : Nat) : report steps env ("run" :: args) = run steps env o :=
    report_of_ofArgs steps env (ofArgs_run hargs)
  simp only [hreport]
  refine ⟨fun steps r => comes_of_run hsource, fun code out => exists_run_of_comes hsource, fun code hpos hle => ?_⟩
  constructor
  · rintro ⟨steps, r, hr, rfl⟩
    exact exits_of_comes (comes_of_run hsource hr) hpos hle
  · rintro ⟨m, input, k, s, hstarts, hrun, hexits⟩
    obtain ⟨out, hcomes⟩ := comes_of_exits (t := t) (f := f) hle hstarts hrun hexits
    obtain ⟨n, r, hcode, -, hn⟩ := exists_run_of_comes hsource hcomes
    exact ⟨n, r, hn n (Nat.le_refl n), hcode⟩

/-- Something is written, and the program ends itself. -/
theorem run_reports_exit :
    let t : Text := "WRITE string@ab\nEXIT int@7\nWRITE int@1"
    let env : Environment := ⟨fun _ => .contents (Utf8.encode t), [], fun _ => none, ⟨id, id⟩⟩
    let o : RunOptions := ⟨some "p", some "p", none, none⟩
    let args : List Text := ["--source=p", "--input=p"]
    runOptions ⟨none, none, none, none⟩ args = .ok o ∧ runSource env o = .ok (t, .text) ∧
    Comes env o t .text 7 "ab" ∧
    ∃ m input k s, Starts env o m input ∧ m.run k (.start input) = (s, .running) ∧ m.Exits s 7 := by
  intro t env o args
  have hargs : runOptions ⟨none, none, none, none⟩ args = .ok o := runOptions_source "p" "p" none
  have hread : env.readText "p" = .ok t := readText_of_contents rfl (Utf8.decode_encode t)
  have hsource : runSource env o = .ok (t, .text) := by
    simp only [runSource, o, hread, Except.map]
    rfl
  obtain ⟨hcomes, -, hexits⟩ := run_reports env hargs hsource
  have hrun : (report 2 env ("run" :: args)).map (fun r => (r.code, r.stdout)) = some (7, ("ab" : Text)) := by
    decide +kernel
  obtain ⟨r, hr, hseen⟩ := Option.map_eq_some_iff.1 hrun
  obtain ⟨hcode, hstdout⟩ := Prod.mk.inj hseen
  have hcase := hcomes 2 r hr
  rw [hcode, hstdout] at hcase
  exact ⟨hargs, hsource, hcase, (hexits 7 (by decide) (by decide)).1 ⟨2, r, hr, hcode⟩⟩

end Cli

end IppCode
