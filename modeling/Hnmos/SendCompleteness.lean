import Mathlib
import Hnmos.AiBridge
import Hnmos.AiSession

/-!
# What a reported send has put on the line

Every byte of a frame has its own bounded wait for the transmitter. A byte
whose wait ends is lost, the frame goes on and the send is reported all the
same. So a reported send is a complete one exactly when the transmitter answers
within the wait of every byte of the frame.
-/

set_option autoImplicit false

namespace Hnmos.SerialPort

/-- The status register answers the waits of the next `count` bytes, the first
of which starts with the given number of reads. -/
def Answers (canWrite : ℕ → Bool) : ℕ → ℕ → Prop
  | _, 0 => True
  | reads, count + 1 => ∃ k < 100000, (∀ j < k, canWrite (reads + j) = false) ∧
      canWrite (reads + k) = true ∧ Answers canWrite (reads + k + 1) count

theorem attemptWrite_answered (attempts : ℕ) (u : Uart) (c : UInt8) (k : ℕ) (hk : k < attempts)
    (hbusy : ∀ j < k, u.canWrite (u.reads + j) = false) (hready : u.canWrite (u.reads + k) = true) :
    u.attemptWrite attempts c =
      { u with reads := u.reads + k + 1, written := u.written ++ [c] } := by
  induction attempts generalizing u k with
  | zero => exact absurd hk (Nat.not_lt_zero k)
  | succ attempts ih =>
    cases k with
    | zero =>
      have hnow : u.canWrite u.reads = true := hready
      rw [Uart.attemptWrite, if_pos hnow]
    | succ k =>
      have hnow : u.canWrite u.reads = false := hbusy 0 (Nat.succ_pos k)
      have hshift (j : ℕ) : u.reads + 1 + j = u.reads + (j + 1) := by omega
      have hnext := ih { u with reads := u.reads + 1 } k (Nat.lt_of_succ_lt_succ hk)
        (fun j hj => by rw [hshift]; exact hbusy (j + 1) (Nat.succ_lt_succ hj))
        (by rw [hshift]; exact hready)
      simp only [Uart.attemptWrite, hnow, Bool.false_eq_true, if_false, hnext, hshift]

theorem attemptWrite_lost (attempts : ℕ) (u : Uart) (c : UInt8)
    (hbusy : ∀ k < attempts, u.canWrite (u.reads + k) = false) :
    (u.attemptWrite attempts c).written = u.written := by
  induction attempts generalizing u with
  | zero => rfl
  | succ attempts ih =>
    have hnow : u.canWrite u.reads = false := hbusy 0 (Nat.succ_pos attempts)
    simp only [Uart.attemptWrite, hnow, Bool.false_eq_true, if_false]
    apply ih { u with reads := u.reads + 1 }
    intro k hk
    have hlater := hbusy (k + 1) (Nat.succ_lt_succ hk)
    rwa [show u.reads + (k + 1) = u.reads + 1 + k by omega] at hlater

theorem writeChar_cases (u : Uart) (c : UInt8) :
    (∃ k < 100000, (∀ j < k, u.canWrite (u.reads + j) = false) ∧
      u.canWrite (u.reads + k) = true ∧
      u.writeChar c = { u with reads := u.reads + k + 1, written := u.written ++ [c] }) ∨
    (∀ k < 100000, u.canWrite (u.reads + k) = false) ∧ (u.writeChar c).written = u.written := by
  by_cases hready : ∃ k, k < 100000 ∧ u.canWrite (u.reads + k) = true
  · left
    have hk := Nat.find_spec hready
    have hbusy : ∀ j < Nat.find hready, u.canWrite (u.reads + j) = false := by
      intro j hj
      by_contra hanswer
      exact Nat.find_min hready hj ⟨hj.trans hk.1, by simpa using hanswer⟩
    exact ⟨Nat.find hready, hk.1, hbusy, hk.2,
      attemptWrite_answered 100000 u c _ hk.1 hbusy hk.2⟩
  · right
    have hbusy : ∀ k < 100000, u.canWrite (u.reads + k) = false := by
      intro k hk
      by_contra hanswer
      exact hready ⟨k, hk, by simpa using hanswer⟩
    exact ⟨hbusy, attemptWrite_lost 100000 u c hbusy⟩

theorem writeText_length (u : Uart) (text : List UInt8) :
    (u.writeText text).written.length ≤ u.written.length + text.length := by
  induction text generalizing u with
  | nil => exact Nat.le_refl _
  | cons c text ih =>
    have hrest := ih (u.writeChar c)
    have hfirst : (u.writeChar c).written.length ≤ u.written.length + 1 := by
      rcases writeChar_cases u c with ⟨k, _, _, _, hwrite⟩ | ⟨_, hlost⟩
      · simp [hwrite]
      · rw [hlost]
        exact Nat.le_succ _
    rw [writeText_cons, List.length_cons]
    omega

/-- A write is complete exactly when the waits of all its bytes are answered. -/
theorem writeText_complete_iff (u : Uart) (text : List UInt8) :
    (u.writeText text).written = u.written ++ text ↔ Answers u.canWrite u.reads text.length := by
  induction text generalizing u with
  | nil => simp [Answers]
  | cons c text ih =>
    rw [writeText_cons, List.length_cons, Answers]
    rcases writeChar_cases u c with ⟨k, hk, hbusy, hready, hwrite⟩ | ⟨hbusy, hlost⟩
    · have hrest := ih (u.writeChar c)
      simp only [hwrite, List.append_assoc, List.singleton_append] at hrest ⊢
      rw [hrest]
      constructor
      · intro h
        exact ⟨k, hk, hbusy, hready, h⟩
      · rintro ⟨k', _, hbusy', hready', h⟩
        -- both are the first positive answer
        have hsame : k' = k := by
          rcases Nat.lt_trichotomy k' k with hlt | heq | hgt
          · exact absurd ((hbusy k' hlt).symm.trans hready') Bool.false_ne_true
          · exact heq
          · exact absurd ((hbusy' k hgt).symm.trans hready) Bool.false_ne_true
        exact hsame ▸ h
    · constructor
      · intro hcomplete
        have hlength := writeText_length (u.writeChar c) text
        rw [hcomplete, hlost, List.length_append, List.length_cons] at hlength
        omega
      · rintro ⟨k, hk, _, hready, _⟩
        exact absurd ((hbusy k hk).symm.trans hready) Bool.false_ne_true

end Hnmos.SerialPort

namespace Hnmos.SendCompleteness
open Hnmos.AiBridge Hnmos.AiSession Hnmos.CString Hnmos.SerialPort Hnmos.SerialTransport Hnmos.Task

def taskFrame (task : AiTask) : List UInt8 :=
  requestFrame task.taskId task.taskType task.input.chars (task.languageProfile.getD [])

def Sendable (t : Transport) (task : AiTask) : Prop := t.ready = true ∧ task.input.chars ≠ []

def Submittable (t : Transport) (task : AiTask) : Prop :=
  task.status ≠ .empty ∧ ¬ (task.taskType = .hnlang ∧ task.languageProfile = none) ∧
    Sendable t task

def Handable (s : Session) (t : Transport) : Prop :=
  8 ≤ s.secretIndex ∧ t.ready = true ∧ cstr s.secret ≠ []

theorem send_refused (t : Transport) (task : AiTask) (u : Uart) (h : ¬ Sendable t task) :
    t.send task u = (false, u) := by
  have hrefused : t.ready = false ∨ task.input.chars = [] := by
    by_contra hnone
    obtain ⟨hready, hinput⟩ := not_or.mp hnone
    exact h ⟨by simpa using hready, hinput⟩
  rw [Transport.send, if_pos hrefused]

theorem sendApiKey_refused (t : Transport) (apiKey : List UInt8) (u : Uart)
    (h : ¬ (t.ready = true ∧ apiKey ≠ [])) : t.sendApiKey apiKey u = (false, u) := by
  have hrefused : t.ready = false ∨ apiKey = [] := by
    by_contra hnone
    obtain ⟨hready, hkey⟩ := not_or.mp hnone
    exact h ⟨by simpa using hready, hkey⟩
  rw [Transport.sendApiKey, if_pos hrefused]

theorem send_complete_iff (t : Transport) (task : AiTask) (u : Uart) :
    ((t.send task u).1 = true → (t.send task u).2.written = u.written ++ taskFrame task) ↔
      (Sendable t task → Answers u.canWrite u.reads (taskFrame task).length) := by
  by_cases hsend : Sendable t task
  · rw [send_eq t task u hsend.1 hsend.2, ← writeText_complete_iff u (taskFrame task)]
    exact ⟨fun h _ => h rfl, fun h _ => h hsend⟩
  · rw [send_refused t task u hsend]
    exact ⟨fun _ h => absurd h hsend, fun _ h => absurd h Bool.false_ne_true⟩

theorem sendApiKey_complete_iff (t : Transport) (apiKey : List UInt8) (u : Uart) :
    ((t.sendApiKey apiKey u).1 = true →
        (t.sendApiKey apiKey u).2.written = u.written ++ keyFrame apiKey) ↔
      (t.ready = true ∧ apiKey ≠ [] → Answers u.canWrite u.reads (keyFrame apiKey).length) := by
  by_cases hsend : t.ready = true ∧ apiKey ≠ []
  · rw [sendApiKey_eq t apiKey u hsend.1 hsend.2, ← writeText_complete_iff u (keyFrame apiKey)]
    exact ⟨fun h _ => h rfl, fun h _ => h hsend⟩
  · rw [sendApiKey_refused t apiKey u hsend]
    exact ⟨fun _ h => absurd h hsend, fun _ h => absurd h Bool.false_ne_true⟩

theorem serialSubmit_running_iff (t : Transport) (task : AiTask) (u : Uart)
    (hidle : task.status ≠ .running) :
    (serialSubmitTask t task u).2.1.status = .running ↔ Submittable t task := by
  rw [serialSubmitTask]
  by_cases hempty : task.status = .empty
  · rw [if_pos hempty]
    exact ⟨fun h => absurd h hidle, fun h => absurd hempty h.1⟩
  rw [if_neg hempty]
  by_cases hprofile : task.taskType = .hnlang ∧ task.languageProfile = none
  · rw [if_pos hprofile]
    exact ⟨fun h => absurd h TaskStatus.noConfusion, fun h => absurd hprofile h.2.1⟩
  rw [if_neg hprofile]
  by_cases hsend : Sendable t task
  · rw [send_eq t task u hsend.1 hsend.2]
    exact ⟨fun _ => ⟨hempty, hprofile, hsend⟩, fun _ => rfl⟩
  · rw [send_refused t task u hsend]
    exact ⟨fun h => absurd h TaskStatus.noConfusion, fun h => absurd h.2.2 hsend⟩

theorem serialSubmit_written (t : Transport) (task : AiTask) (u : Uart)
    (h : Submittable t task) :
    (serialSubmitTask t task u).2.2.written = (u.writeText (taskFrame task)).written := by
  rw [serialSubmitTask, if_neg h.1, if_neg h.2.1, send_eq t task u h.2.2.1 h.2.2.2]
  rfl

theorem serialSubmit_complete_iff (t : Transport) (task : AiTask) (u : Uart) :
    (task.status ≠ .running → (serialSubmitTask t task u).2.1.status = .running →
        (serialSubmitTask t task u).2.2.written = u.written ++ taskFrame task) ↔
      (task.status ≠ .running → Submittable t task →
        Answers u.canWrite u.reads (taskFrame task).length) := by
  apply imp_congr_right
  intro hidle
  rw [serialSubmit_running_iff t task u hidle]
  apply imp_congr_right
  intro hsubmit
  rw [serialSubmit_written t task u hsubmit]
  exact writeText_complete_iff u (taskFrame task)

theorem submitApiKey_waiting_iff (s : Session) (t : Transport) (u : Uart)
    (hentering : s.state = .enteringApiKey) :
    (s.submitApiKey t u).1.state = .waitingProvider ↔ Handable s t := by
  rw [Session.submitApiKey, if_neg (not_not.mpr hentering)]
  by_cases hshort : s.secretIndex < 8
  · rw [if_pos hshort]
    exact ⟨fun h => absurd h SessionStatus.noConfusion, fun h => absurd h.1 (Nat.not_le.mpr hshort)⟩
  rw [if_neg hshort]
  by_cases hsend : t.ready = true ∧ cstr s.secret ≠ []
  · rw [sendApiKey_eq t _ u hsend.1 hsend.2]
    exact ⟨fun _ => ⟨Nat.le_of_not_lt hshort, hsend⟩, fun _ => rfl⟩
  · rw [sendApiKey_refused t _ u hsend]
    exact ⟨fun h => absurd h SessionStatus.noConfusion, fun h => absurd h.2 hsend⟩

theorem submitApiKey_written (s : Session) (t : Transport) (u : Uart)
    (hentering : s.state = .enteringApiKey) (h : Handable s t) :
    (s.submitApiKey t u).2.written = (u.writeText (keyFrame (cstr s.secret))).written := by
  rw [Session.submitApiKey, if_neg (not_not.mpr hentering), if_neg (Nat.not_lt.mpr h.1),
    sendApiKey_eq t _ u h.2.1 h.2.2]

theorem submitApiKey_complete_iff (s : Session) (t : Transport) (u : Uart) :
    (s.state = .enteringApiKey → (s.submitApiKey t u).1.state = .waitingProvider →
        (s.submitApiKey t u).2.written = u.written ++ keyFrame (cstr s.secret)) ↔
      (s.state = .enteringApiKey → Handable s t →
        Answers u.canWrite u.reads (keyFrame (cstr s.secret)).length) := by
  apply imp_congr_right
  intro hentering
  rw [submitApiKey_waiting_iff s t u hentering]
  apply imp_congr_right
  intro hhand
  rw [submitApiKey_written s t u hentering hhand]
  exact writeText_complete_iff u _

/-- A reported send has put out its whole frame, also where the report is a
running task or a key handed off, exactly when a send that is not refused has
all its bytes answered. -/
theorem reported_complete_iff (t : Transport) (task : AiTask) (apiKey : List UInt8) (s : Session)
    (u : Uart) :
    (((t.send task u).1 = true → (t.send task u).2.written = u.written ++ taskFrame task) ↔
      (Sendable t task → Answers u.canWrite u.reads (taskFrame task).length)) ∧
    (((t.sendApiKey apiKey u).1 = true →
        (t.sendApiKey apiKey u).2.written = u.written ++ keyFrame apiKey) ↔
      (t.ready = true ∧ apiKey ≠ [] → Answers u.canWrite u.reads (keyFrame apiKey).length)) ∧
    ((task.status ≠ .running → (serialSubmitTask t task u).2.1.status = .running →
        (serialSubmitTask t task u).2.2.written = u.written ++ taskFrame task) ↔
      (task.status ≠ .running → Submittable t task →
        Answers u.canWrite u.reads (taskFrame task).length)) ∧
    ((s.state = .enteringApiKey → (s.submitApiKey t u).1.state = .waitingProvider →
        (s.submitApiKey t u).2.written = u.written ++ keyFrame (cstr s.secret)) ↔
      (s.state = .enteringApiKey → Handable s t →
        Answers u.canWrite u.reads (keyFrame (cstr s.secret)).length)) :=
  ⟨send_complete_iff t task u, sendApiKey_complete_iff t apiKey u,
    serialSubmit_complete_iff t task u, submitApiKey_complete_iff s t u⟩

def silentUart : Uart := ⟨fun _ => false, 0, []⟩

def silentTask : AiTask := AiTask.prepare 1 .help (some (ascii "hello")) 0

theorem silent_lost : ¬ ((Transport.init.send silentTask silentUart).1 = true →
    (Transport.init.send silentTask silentUart).2.written =
      silentUart.written ++ taskFrame silentTask) := by
  rw [send_complete_iff]
  intro hanswers
  have hsend : Sendable Transport.init silentTask := ⟨rfl, by decide⟩
  have hlength : 0 < (taskFrame silentTask).length := by
    rw [taskFrame, requestFrame, List.length_append, List.length_singleton]
    exact Nat.succ_pos _
  obtain ⟨count, hcount⟩ := Nat.exists_eq_succ_of_ne_zero hlength.ne'
  have hfirst := hanswers hsend
  rw [hcount, Answers] at hfirst
  obtain ⟨k, _, _, hready, _⟩ := hfirst
  exact absurd hready Bool.false_ne_true

end Hnmos.SendCompleteness
