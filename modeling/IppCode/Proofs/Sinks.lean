import IppCode.Proofs.Lockstep
import IppCode.Proofs.Writes
/-!
# Sinks — the same writes up to the texts of diagnostics

Two runs may hand their sinks writes that are the same but for the texts of diagnostics.  What
they need of the sink to go on alike is that it takes a write of the one run iff it takes that
of the other (`Sink.DecidesAlike`).  Of a write that it refuses in both runs, the words of the
error (`Sink.SaysAlike`) and what is taken all the same (`Sink.KeepsAlike`) are the sink's own,
and may be different; everything else is as without a refusal (`Sink.DecidesAlike.outcomes`).
-/
namespace IppCode

open IppCode.Action (Outcomes)

/-! ## Writes -/

/-- The same write, up to the text of a diagnostic. -/
inductive Write.Alike : Write → Write → Prop
  | output (v : Value) : Alike (.output v) (.output v)
  | diagnostic (t u : Text) : Alike (.diagnostic t) (.diagnostic u)

theorem Write.Alike.outputPart_eq {w w' : Write} (h : w.Alike w') : Log.outputPart w = Log.outputPart w' := by
  cases h <;> rfl

namespace Sink

variable {W : Write → Write → Prop} {sink : Sink} {w w' : Write} {log log' : Log}

/-- The log after a write has been handed to the sink, whether it is taken or not. -/
def handed (sink : Sink) (w : Write) (log : Log) : Log :=
  match sink.write w log with
  | .ok _ rest    => rest
  | .error _ rest => rest

/-- **The logs of two runs that have handed the sink writes which are related one by one.** -/
inductive Handed (sink : Sink) (W : Write → Write → Prop) : Log → Log → Prop
  | start : Handed sink W [] []
  | write {log log' : Log} {w w' : Write} (h : Handed sink W log log') (hw : W w w') :
      Handed sink W (sink.handed w log) (sink.handed w' log')

/-- The sink takes a write, or drops it. -/
def Takes (sink : Sink) (w : Write) (log : Log) : Prop := ∃ rest, sink.write w log = .ok () rest

/-- **Whether a write is taken is the same** in two runs that have handed the sink related writes,
and do so again. -/
def DecidesAlike (sink : Sink) (W : Write → Write → Prop) : Prop :=
  ∀ log log' w w', sink.Handed W log log' → W w w' → (sink.Takes w log ↔ sink.Takes w' log')

/-- A refusal says the same in both runs. -/
def SaysAlike (sink : Sink) (W : Write → Write → Prop) : Prop :=
  ∀ log log' w w' why why' rest rest', sink.Handed W log log' → W w w' →
    sink.write w log = .error why rest → sink.write w' log' = .error why' rest' → why = why'

/-- What has been taken after a refusal is the same in both runs, if it was before it. -/
def KeepsAlike (sink : Sink) (W : Write → Write → Prop) : Prop :=
  ∀ log log' w w' why why' rest rest', sink.Handed W log log' → List.Forall₂ W log log' → W w w' →
    sink.write w log = .error why rest → sink.write w' log' = .error why' rest' → List.Forall₂ W rest rest'

/-! ## What becomes of two writes -/

/-- The logs of two runs that have handed the sink related writes; they are the same if a
condition holds. -/
structure LogsAlike (sink : Sink) (W : Write → Write → Prop) (K : Prop) (log log' : Log) : Prop where
  handed : sink.Handed W log log'
  same   : K → List.Forall₂ W log log'

/-- The words and the logs with which the sink has refused a write in both runs. -/
structure RefusedAlike (sink : Sink) (W : Write → Write → Prop) (K : Prop) (why : Text) (log : Log) (why' : Text)
    (log' : Log) : Prop where
  handed : sink.Handed W log log'
  words  : sink.SaysAlike W → why = why'
  same   : K → sink.KeepsAlike W → List.Forall₂ W log log'

theorem LogsAlike.start (sink : Sink) (W : Write → Write → Prop) (K : Prop) : sink.LogsAlike W K [] [] :=
  ⟨.start, fun _ => .nil⟩

theorem LogsAlike.output_eq {K : Prop} (h : sink.LogsAlike W K log log') (hW : ∀ w w', W w w' → w.Alike w') (hK : K) :
    log.output = log'.output :=
  Log.output_eq_of_forall₂ (fun w w' hw => (hW w w' hw).outputPart_eq) (h.same hK)

/-- A write that is not refused is put into the log, or is a diagnostic that is dropped. -/
theorem write_eq_ok {rest : Log} (h : sink.write w log = .ok () rest) :
    rest = w :: log ∨ (sink.keepsDiagnostics = false ∧ (∃ t, w = .diagnostic t) ∧ rest = log) := by
  have htaken : sink.take w log = .ok () rest → rest = w :: log := by
    unfold take
    cases sink.refusal? log w with
    | none =>
      intro h
      cases h
      rfl
    | some r => nofun
  cases w with
  | output v => exact .inl (htaken h)
  | diagnostic t =>
    unfold write at h
    split_ifs at h with hkeeps
    · exact .inl (htaken h)
    · cases h
      exact .inr ⟨eq_false_of_ne_true hkeeps, ⟨t, rfl⟩, rfl⟩

theorem handed_of_ok {rest : Log} (h : sink.write w log = .ok () rest) : sink.handed w log = rest := by
  unfold handed
  rw [h]

theorem handed_of_error {why : Text} {rest : Log} (h : sink.write w log = .error why rest) :
    sink.handed w log = rest := by
  unfold handed
  rw [h]

/-- Related writes that are not refused leave related logs. -/
theorem forall₂_of_taken (hw : W w w') (halike : w.Alike w') (hlog : List.Forall₂ W log log') {rest rest' : Log}
    (h : sink.write w log = .ok () rest) (h' : sink.write w' log' = .ok () rest') : List.Forall₂ W rest rest' := by
  rcases write_eq_ok h with rfl | ⟨hdrops, ⟨t, rfl⟩, rfl⟩
  · rcases write_eq_ok h' with rfl | ⟨hdrops, ⟨t', rfl⟩, rfl⟩
    · exact .cons hw hlog
    · -- The sink drops the second write, so it has dropped the first one as well.
      cases halike
      unfold write at h
      rw [if_neg (by simp [hdrops])] at h
      injection h with _ hself
      exact absurd (congrArg List.length hself) (by simp)
  · cases halike
    unfold write at h'
    rw [if_neg (by simp [hdrops])] at h'
    cases h'
    exact hlog

/-- **Both writes are taken or both are refused**, and in both cases the logs stay as alike as the
sink makes them. -/
theorem DecidesAlike.outcomes {K : Prop} (h : sink.DecidesAlike W) (hW : ∀ w w', W w w' → w.Alike w')
    (hlog : sink.LogsAlike W K log log') (hw : W w w') :
    Outcomes (sink.LogsAlike W K) (sink.RefusedAlike W K) Eq (sink.write w log) (sink.write w' log') := by
  have htakes := h log log' w w' hlog.handed hw
  have hhanded := hlog.handed.write hw
  cases hone : sink.write w log with
  | ok _ rest =>
    obtain ⟨rest', hother⟩ := htakes.1 ⟨rest, hone⟩
    rw [handed_of_ok hone, handed_of_ok hother] at hhanded
    rw [hother]
    exact .ok rfl ⟨hhanded, fun hK => forall₂_of_taken hw (hW w w' hw) (hlog.same hK) hone hother⟩
  | error why rest =>
    cases hother : sink.write w' log' with
    | ok _ rest' =>
      obtain ⟨rest, htaken⟩ := htakes.2 ⟨rest', hother⟩
      rw [hone] at htaken
      cases htaken
    | error why' rest' =>
      rw [handed_of_error hone, handed_of_error hother] at hhanded
      exact .error ⟨hhanded, fun hsays => hsays _ _ _ _ _ _ _ _ hlog.handed hw hone hother,
        fun hK hkeeps => hkeeps _ _ _ _ _ _ _ _ hlog.handed (hlog.same hK) hw hone hother⟩

/-! ## Sinks that count -/

section TakesFirst

variable {n : Nat} (h : sink.TakesFirst n)

include h

theorem TakesFirst.takes_iff (w : Write) (log : Log) : sink.Takes w log ↔ log.length < n := by
  constructor
  · rintro ⟨rest, htaken⟩
    by_contra hfull
    obtain ⟨why, -, hrefused⟩ := h.write_of_le w (Nat.not_lt.1 hfull)
    rw [hrefused] at htaken
    cases htaken
  · exact fun hlt => ⟨_, h.write_of_lt w hlt⟩

theorem TakesFirst.length_handed (w : Write) (log : Log) :
    (sink.handed w log).length = if log.length < n then log.length + 1 else log.length := by
  split_ifs with hlog
  · rw [handed_of_ok (h.write_of_lt w hlog), List.length_cons]
  · obtain ⟨why, -, hrefused⟩ := h.write_of_le w (Nat.not_lt.1 hlog)
    rw [handed_of_error hrefused]

theorem TakesFirst.length_eq (hlog : sink.Handed W log log') : log.length = log'.length := by
  induction hlog with
  | start => rfl
  | write _ _ ih => rw [h.length_handed, h.length_handed, ih]

/-- **A sink that only counts its writes does not look at their texts.** -/
theorem TakesFirst.decidesAlike (W : Write → Write → Prop) : sink.DecidesAlike W := by
  intro log log' w w' hlog _
  rw [h.takes_iff, h.takes_iff, h.length_eq hlog]

/-- A refusal takes nothing. -/
theorem TakesFirst.eq_of_error {why : Text} {rest : Log} (hrefused : sink.write w log = .error why rest) :
    rest = log := by
  have hfull : n ≤ log.length := by
    by_contra hlt
    rw [h.write_of_lt w (Nat.not_le.1 hlt)] at hrefused
    cases hrefused
  obtain ⟨why', -, hsame⟩ := h.write_of_le w hfull
  rw [hsame] at hrefused
  cases hrefused
  rfl

theorem TakesFirst.keepsAlike (W : Write → Write → Prop) : sink.KeepsAlike W := by
  intro log log' w w' why why' rest rest' _ hlogs _ hone hother
  rw [h.eq_of_error hone, h.eq_of_error hother]
  exact hlogs

end TakesFirst

/-- Takes so many writes, and refuses every other one with the line that it would have been. -/
def echo (room : Nat) : Sink :=
  ⟨true, fun log w => if log.length < room then none else some ⟨Log.diagnosticPart w, []⟩⟩

theorem echo_takesFirst (room : Nat) : (echo room).TakesFirst room := by
  refine ⟨rfl, fun log w => ⟨fun hlt => if_pos hlt, fun hle => ⟨_, if_neg ?_⟩⟩⟩
  exact Nat.not_lt.2 hle

end Sink

/-! ## How runs come out -/

/-- The run has come to a write that the sink has refused. -/
def Status.Refused (st : Status) : Prop := ∃ k why, st = .failed ⟨k, .output why⟩

/-- **The same way to come out, up to the words** with which the sink has refused a write. -/
inductive Status.UpToWords : Status → Status → Prop
  | same (st : Status) : UpToWords st st
  | refused (k : Nat) (why why' : Text) : UpToWords (.failed ⟨k, .output why⟩) (.failed ⟨k, .output why'⟩)

theorem Status.UpToWords.running_iff {st st' : Status} (h : st.UpToWords st') : st = .running ↔ st' = .running := by
  cases h with
  | same => exact Iff.rfl
  | refused => exact ⟨nofun, nofun⟩

/-! ## States -/

/-- **A relation between states that asks something of their logs**, and goes on with whatever is
asked of other ones. -/
structure OfLogs (R : (Log → Log → Prop) → State → State → Prop) : Prop where
  log     : ∀ {L s t}, R L s t → L s.log t.log
  set_log : ∀ {L L' : Log → Log → Prop} {s t log log'}, R L s t → L' log log' →
    R L' { s with log := log } { t with log := log' }

/-- Both have failed with the same fault in related states, or the sink has refused a write of both. -/
inductive FailAlike (R : (Log → Log → Prop) → State → State → Prop) (L : Log → Log → Prop)
    (X : Text → Log → Text → Log → Prop) : Fault → State → Fault → State → Prop
  | same {s t : State} (fault : Fault) (h : R L s t) : FailAlike R L X fault s fault t
  | refused {s t : State} (why why' : Text) (h : R (fun log log' => X why log why' log') s t) :
      FailAlike R L X (.output why) s (.output why') t

namespace OfLogs

variable {R : (Log → Log → Prop) → State → State → Prop} (hR : OfLogs R) {s t : State}

include hR

theorem imp {L L' : Log → Log → Prop} (h : R L s t) (hlog : L s.log t.log → L' s.log t.log) : R L' s t :=
  hR.set_log h (hlog (hR.log h))

/-- **Two related writes are sent in step**, to a sink that decides alike about them. -/
theorem outcomes_send {sink : Sink} {W : Write → Write → Prop} {K : Prop} (hsink : sink.DecidesAlike W)
    (hW : ∀ w w', W w w' → w.Alike w') {w w' : Write} (hw : W w w') (h : R (sink.LogsAlike W K) s t) :
    Outcomes (R (sink.LogsAlike W K)) (FailAlike R (sink.LogsAlike W K) (sink.RefusedAlike W K)) Eq
      (Action.send sink w s) (Action.send sink w' t) :=
  Action.outcomes_send (hsink.outcomes hW (hR.log h) hw) (fun _ _ hlog => hR.set_log h hlog)
    fun why _ why' _ hrefused => .refused why why' (hR.set_log h hrefused)

end OfLogs

end IppCode
