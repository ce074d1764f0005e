import Mathlib
import Hnmos.MouseDriver
import Hnmos.PortDriver

/-!
# Setting up the mouse

The driver talks to the PS/2 controller through its status, command and data
ports. Nothing is assumed of the controller and of the mouse behind it: they
may never be ready, and they may answer anything.
-/

set_option autoImplicit false

namespace Hnmos.MouseSetup
open Hnmos.CString Hnmos.Graphics Hnmos.MouseDriver Hnmos.PortDriver

def ps2DataPort : UInt16 := 0x60
def ps2StatusPort : UInt16 := 0x64
def ps2CommandPort : UInt16 := 0x64
def ps2StatusOutputFull : UInt8 := 1
def ps2StatusInputFull : UInt8 := 2
def ps2CommandReadConfig : UInt8 := 0x20
def ps2CommandWriteConfig : UInt8 := 0x60
def ps2CommandEnableMousePort : UInt8 := 0xA8
def ps2CommandWriteMouse : UInt8 := 0xD4
def ps2ConfigMouseIrq : UInt8 := 2
def ps2ConfigMouseClockDisabled : UInt8 := 0x20
def mouseCommandSetDefaults : UInt8 := 0xF6
def mouseCommandEnableData : UInt8 := 0xF4
def mouseAck : UInt8 := 0xFA
def mouseWaitAttempts : ℕ := 100000

def inputClear (status : UInt8) : Bool := status &&& ps2StatusInputFull == 0

def outputFull (status : UInt8) : Bool := status &&& ps2StatusOutputFull != 0

def ps2WaitInputClear : Driver UInt16 UInt8 Unit Unit :=
  waitFor ps2StatusPort inputClear mouseWaitAttempts

def ps2WaitOutputFull : Driver UInt16 UInt8 Unit Unit :=
  waitFor ps2StatusPort outputFull mouseWaitAttempts

def flushLoop : ℕ → Driver UInt16 UInt8 (List UInt8) Unit
  | 0 => pure ()
  | attempts + 1 => do
    let status ← inb ps2StatusPort
    if outputFull status then
      let _ ← inb ps2DataPort
      flushLoop attempts
    else pure ()

def ps2FlushOutput : Driver UInt16 UInt8 (List UInt8) Unit := flushLoop 64

def ps2WriteControllerCommand (command : UInt8) : Driver UInt16 UInt8 Unit Unit := do
  ps2WaitInputClear
  outb ps2CommandPort command

def ps2ReadConfig : Driver UInt16 UInt8 Unit UInt8 := do
  ps2WriteControllerCommand ps2CommandReadConfig
  ps2WaitOutputFull
  inb ps2DataPort

def ps2WriteConfig (config : UInt8) : Driver UInt16 UInt8 Unit Unit := do
  ps2WriteControllerCommand ps2CommandWriteConfig
  ps2WaitInputClear
  outb ps2DataPort config

def mouseWriteCommand (command : UInt8) : Driver UInt16 UInt8 Unit Unit := do
  ps2WriteControllerCommand ps2CommandWriteMouse
  ps2WaitInputClear
  outb ps2DataPort command
  ps2WaitOutputFull
  let response ← inb ps2DataPort
  if response = mouseAck then pure () else fail ()

/-- The interrupt of the mouse is switched on and its clock too; the rest stays. -/
def mouseConfig (config : UInt8) : UInt8 :=
  (config ||| ps2ConfigMouseIrq) &&& ~~~ps2ConfigMouseClockDisabled

def mouseTalk : Driver UInt16 UInt8 (List UInt8) Unit := do
  (ps2WriteControllerCommand ps2CommandEnableMousePort).failing
    (ascii "mouse: PS/2 controller did not accept enable command.")
  let config ← ps2ReadConfig.failing (ascii "mouse: PS/2 controller config read failed.")
  (ps2WriteConfig (mouseConfig config)).failing
    (ascii "mouse: PS/2 controller config write failed.")
  (mouseWriteCommand mouseCommandSetDefaults).failing
    (ascii "mouse: PS/2 set defaults command failed.")
  (mouseWriteCommand mouseCommandEnableData).failing
    (ascii "mouse: PS/2 data reporting command failed.")

def mouseSetup : Driver UInt16 UInt8 (List UInt8) Unit := do
  ps2FlushOutput
  mouseTalk

def logged : Except (List UInt8) Unit → List UInt8
  | .ok () => ascii "mouse: PS/2 IRQ12 ready."
  | .error message => message

def mouseInit (m : Mouse) (v : Video) (d : Device UInt16 UInt8) (h : History UInt16 UInt8) :
    Mouse × List UInt8 × History UInt16 UInt8 :=
  if v.available then
    (m.init v (mouseSetup d h).1.toOption.isSome, logged (mouseSetup d h).1, (mouseSetup d h).2)
  else (m.init v false, ascii "mouse: framebuffer unavailable; cursor disabled.", h)

/-- A write waits until the input buffer is clear, a read of data until the
output buffer is full. -/
def needs : Access UInt16 UInt8 → Option (UInt8 → Bool)
  | .write _ _ => some inputClear
  | .read port _ => if port = ps2StatusPort then none else some outputFull

def manners : Manners UInt16 UInt8 := ⟨ps2StatusPort, needs⟩

def answered (response : UInt8) : Script UInt16 UInt8 Unit :=
  if response = mouseAck then .done () else .refuse

def commandScript (command : UInt8) : Script UInt16 UInt8 Unit :=
  .say ps2CommandPort ps2CommandWriteMouse <| .say ps2DataPort command <|
    .hear ps2DataPort answered

def mouseScript : Script UInt16 UInt8 Unit :=
  .say ps2CommandPort ps2CommandEnableMousePort <|
    .say ps2CommandPort ps2CommandReadConfig <| .hear ps2DataPort fun config =>
      .say ps2CommandPort ps2CommandWriteConfig <| .say ps2DataPort (mouseConfig config) <|
        (commandScript mouseCommandSetDefaults).bind fun _ => commandScript mouseCommandEnableData

theorem status_free (value : UInt8) : manners.awaited (.read manners.status value) = none := rfl

theorem data_awaited (value : UInt8) :
    manners.awaited (.read ps2DataPort value) = some outputFull := rfl

theorem command_follows (command : UInt8) :
    Follows manners mouseWaitAttempts (mouseWaitAttempts + 1) (ps2WriteControllerCommand command)
      (.say ps2CommandPort command (.done ())) :=
  follows_outb ps2CommandPort command status_free rfl

theorem data_follows (value : UInt8) :
    Follows manners mouseWaitAttempts (mouseWaitAttempts + 1)
      (ps2WaitInputClear >>= fun _ => outb ps2DataPort value)
      (.say ps2DataPort value (.done ())) :=
  follows_outb ps2DataPort value status_free rfl

theorem answer_follows :
    Follows manners mouseWaitAttempts (mouseWaitAttempts + 1)
      (ps2WaitOutputFull >>= fun _ => inb ps2DataPort) (.hear ps2DataPort .done) :=
  follows_inb ps2DataPort 0 status_free data_awaited

theorem readConfig_follows :
    Follows manners mouseWaitAttempts (mouseWaitAttempts + 1 + (mouseWaitAttempts + 1))
      ps2ReadConfig
      (.say ps2CommandPort ps2CommandReadConfig (.hear ps2DataPort .done)) :=
  follows_bind (command_follows ps2CommandReadConfig) fun _ => answer_follows

theorem writeConfig_follows (config : UInt8) :
    Follows manners mouseWaitAttempts (mouseWaitAttempts + 1 + (mouseWaitAttempts + 1))
      (ps2WriteConfig config)
      (.say ps2CommandPort ps2CommandWriteConfig (.say ps2DataPort config (.done ()))) :=
  follows_bind (command_follows ps2CommandWriteConfig) fun _ => data_follows config

theorem writeCommand_follows (command : UInt8) :
    Follows manners mouseWaitAttempts
      (mouseWaitAttempts + 1 + (mouseWaitAttempts + 1 + (mouseWaitAttempts + 1 + 0)))
      (mouseWriteCommand command) (commandScript command) := by
  have hanswer (response : UInt8) : Follows manners mouseWaitAttempts 0
      (if response = mouseAck then pure () else fail () : Driver UInt16 UInt8 Unit Unit)
      (answered response) := by
    rw [answered]
    split_ifs
    · exact follows_pure ()
    · exact follows_fail ()
  have hspoken := follows_then (data_follows command) fun _ => follows_then answer_follows hanswer
  exact follows_bind (command_follows ps2CommandWriteMouse) fun _ => hspoken

def talkBound : ℕ := 11 * (mouseWaitAttempts + 1)

theorem talk_follows :
    Follows manners mouseWaitAttempts talkBound mouseTalk mouseScript := by
  have hcommands := follows_bind
    (follows_failing (ascii "mouse: PS/2 set defaults command failed.")
      (writeCommand_follows mouseCommandSetDefaults))
    fun _ => follows_failing (ascii "mouse: PS/2 data reporting command failed.")
      (writeCommand_follows mouseCommandEnableData)
  have hconfig (config : UInt8) := follows_bind
    (follows_failing (ascii "mouse: PS/2 controller config write failed.")
      (writeConfig_follows (mouseConfig config))) fun _ => hcommands
  have hread := follows_bind
    (follows_failing (ascii "mouse: PS/2 controller config read failed.") readConfig_follows)
    hconfig
  exact follows_bind
    (follows_failing (ascii "mouse: PS/2 controller did not accept enable command.")
      (command_follows ps2CommandEnableMousePort)) fun _ => hread

theorem kept_looking (status : UInt8) : manners.Kept [.read ps2StatusPort status] :=
  kept_waits manners _ status_free fun _ ha => ⟨status, List.mem_singleton.mp ha⟩

theorem kept_reading (status value : UInt8) (hfull : outputFull status = true) :
    manners.Kept [.read ps2StatusPort status, .read ps2DataPort value] :=
  kept_concat manners _ _ outputFull status (kept_looking status) (data_awaited value) rfl hfull

theorem flush_reads (attempts : ℕ) (d : Device UInt16 UInt8) (h : History UInt16 UInt8) :
    ∃ made, flushLoop attempts d h = (.ok (), h ++ made) ∧ manners.Kept made ∧
      made.length ≤ 2 * attempts ∧ (manners.said made).length ≤ attempts ∧
      ∀ a ∈ manners.said made, ∃ value, a = .read ps2DataPort value := by
  induction attempts generalizing h with
  | zero =>
    refine ⟨[], ?_, kept_nil manners, Nat.le_refl 0, Nat.le_refl 0, ?_⟩
    · rw [List.append_nil]
      rfl
    · exact fun a ha => absurd ha List.not_mem_nil
  | succ attempts ih =>
    have hstep : flushLoop (attempts + 1) d h = (if outputFull (d h ps2StatusPort) then
          (inb ps2DataPort >>= fun _ => flushLoop attempts :
            Driver UInt16 UInt8 (List UInt8) Unit) else pure ()) d
        (h ++ [.read ps2StatusPort (d h ps2StatusPort)]) := rfl
    rw [hstep]
    generalize d h ps2StatusPort = status
    cases hfull : outputFull status with
    | true =>
      rw [if_pos rfl]
      generalize hvalue : d (h ++ [.read ps2StatusPort status]) ps2DataPort = value
      obtain ⟨made, hmade, hkept, hlength, hsaid, hreads⟩ :=
        ih (h ++ [.read ps2StatusPort status] ++ [.read ps2DataPort value])
      have htold : manners.said ([.read ps2StatusPort status, .read ps2DataPort value] ++ made) =
          .read ps2DataPort value :: manners.said made := rfl
      refine ⟨[.read ps2StatusPort status, .read ps2DataPort value] ++ made, ?_,
        kept_append manners _ made (kept_reading status value hfull) hkept, ?_, ?_, ?_⟩
      · show flushLoop attempts d (h ++ [.read ps2StatusPort status] ++
          [.read ps2DataPort (d (h ++ [.read ps2StatusPort status]) ps2DataPort)]) = _
        rw [hvalue, hmade, List.append_assoc, List.append_assoc]
        rfl
      · rw [List.length_append, List.length_cons, List.length_singleton]
        omega
      · rw [htold]
        exact Nat.succ_le_succ hsaid
      · rw [htold]
        intro a ha
        rcases List.mem_cons.mp ha with rfl | ha
        · exact ⟨value, rfl⟩
        · exact hreads a ha
    | false =>
      rw [if_neg Bool.false_ne_true]
      refine ⟨[.read ps2StatusPort status], rfl, kept_looking status, ?_, Nat.zero_le _,
        fun a ha => absurd ha List.not_mem_nil⟩
      rw [List.length_singleton]
      omega

def dialogue (config : UInt8) : History UInt16 UInt8 :=
  [.write ps2CommandPort ps2CommandEnableMousePort, .write ps2CommandPort ps2CommandReadConfig,
    .read ps2DataPort config, .write ps2CommandPort ps2CommandWriteConfig,
    .write ps2DataPort (mouseConfig config), .write ps2CommandPort ps2CommandWriteMouse,
    .write ps2DataPort mouseCommandSetDefaults, .read ps2DataPort mouseAck,
    .write ps2CommandPort ps2CommandWriteMouse, .write ps2DataPort mouseCommandEnableData,
    .read ps2DataPort mouseAck]

theorem command_leads (command : UInt8) {next rest : Script UInt16 UInt8 Unit}
    {talk : History UInt16 UInt8} (h : Leads next talk rest) :
    Leads ((commandScript command).bind fun _ => next)
      (.write ps2CommandPort ps2CommandWriteMouse :: .write ps2DataPort command ::
        .read ps2DataPort mouseAck :: talk) rest := by
  have hanswered : Leads ((answered mouseAck).bind fun _ => next) talk rest := by
    rw [answered, if_pos rfl]
    exact h
  exact .say _ _ (.say _ _ (.hear _ _ hanswered))

theorem command_ends (command : UInt8) {next rest : Script UInt16 UInt8 Unit}
    {talk : History UInt16 UInt8} (hclosed : rest.Closed)
    (h : Leads ((commandScript command).bind fun _ => next) talk rest) :
    ∃ response more, talk = .write ps2CommandPort ps2CommandWriteMouse ::
        .write ps2DataPort command :: .read ps2DataPort response :: more ∧
      (response = mouseAck ∧ Leads next more rest ∨
        response ≠ mouseAck ∧ more = [] ∧ rest = .refuse) := by
  have hsaid : Leads (.say ps2CommandPort ps2CommandWriteMouse (.say ps2DataPort command
      (.hear ps2DataPort fun response => (answered response).bind fun _ => next))) talk rest := h
  obtain ⟨talk1, rfl, hcommand⟩ := leads_say hclosed hsaid
  obtain ⟨talk2, rfl, hresponse⟩ := leads_say hclosed hcommand
  obtain ⟨response, more, rfl, hmore⟩ := leads_hear hclosed hresponse
  refine ⟨response, more, rfl, ?_⟩
  by_cases hack : response = mouseAck
  · rw [answered, if_pos hack] at hmore
    exact .inl ⟨hack, hmore⟩
  · rw [answered, if_neg hack] at hmore
    cases hmore
    exact .inr ⟨hack, rfl, rfl⟩

theorem command_alone (command : UInt8) :
    ((commandScript command).bind fun _ => .done ()) = commandScript command := by
  have hanswered (response : UInt8) :
      ((answered response).bind fun _ => Script.done ()) = answered response := by
    unfold answered
    split_ifs <;> rfl
  unfold commandScript Script.bind Script.bind Script.bind
  simp only [hanswered]

theorem dialogue_leads (config : UInt8) : Leads mouseScript (dialogue config) (.done ()) := by
  have hlast := command_leads mouseCommandEnableData (Leads.here (Script.done ()))
  rw [command_alone] at hlast
  exact .say _ _ (.say _ _ (.hear _ _ (.say _ _ (.say _ _
    (command_leads mouseCommandSetDefaults hlast)))))

def Refused (talk : History UInt16 UInt8) : Prop :=
  ∃ before response, talk = before ++ [.read ps2DataPort response] ∧ response ≠ mouseAck

theorem script_ends {rest : Script UInt16 UInt8 Unit} {talk : History UInt16 UInt8}
    (hclosed : rest.Closed) (h : Leads mouseScript talk rest) :
    (rest = .done () ∧ ∃ config, talk = dialogue config) ∨ (rest = .refuse ∧ Refused talk) := by
  obtain ⟨talk1, rfl, hread⟩ := leads_say hclosed h
  obtain ⟨talk2, rfl, hconfig⟩ := leads_say hclosed hread
  obtain ⟨config, talk3, rfl, hwrite⟩ := leads_hear hclosed hconfig
  obtain ⟨talk4, rfl, hmouse⟩ := leads_say hclosed hwrite
  obtain ⟨talk5, rfl, hcommands⟩ := leads_say hclosed hmouse
  obtain ⟨first, more, rfl, ⟨rfl, hmore⟩ | ⟨hfirst, rfl, rfl⟩⟩ :=
    command_ends _ hclosed hcommands
  · rw [← command_alone] at hmore
    obtain ⟨second, last, rfl, ⟨rfl, hlast⟩ | ⟨hsecond, rfl, rfl⟩⟩ := command_ends _ hclosed hmore
    · cases hlast
      exact .inl ⟨rfl, config, rfl⟩
    · exact .inr ⟨rfl, _ :: _ :: _ :: _ :: _ :: _ :: _ :: _ :: _ :: [_], second, rfl, hsecond⟩
  · exact .inr ⟨rfl, _ :: _ :: _ :: _ :: _ :: _ :: [_], first, rfl, hfirst⟩

/-- What the setup of a mouse on a screen does on any device. -/
theorem setup_outcome (d : Device UInt16 UInt8) (h : History UInt16 UInt8) :
    ∃ flushing made rest, (mouseSetup d h).2 = h ++ (flushing ++ made) ∧
      manners.Kept flushing ∧ flushing.length ≤ 128 ∧ (manners.said flushing).length ≤ 64 ∧
      (∀ a ∈ manners.said flushing, ∃ value, a = .read ps2DataPort value) ∧
      Outcome manners mouseWaitAttempts talkBound mouseScript made (mouseSetup d h).1 rest := by
  obtain ⟨flushing, hflush, hkept, hlength, hsaid, hreads⟩ := flush_reads 64 d h
  obtain ⟨made, rest, hmade, houtcome⟩ := talk_follows d (h ++ flushing)
  have hsetup : mouseSetup d h = mouseTalk d (h ++ flushing) := by
    show Driver.after (flushLoop 64 d h) (fun _ => mouseTalk) d = _
    rw [hflush]
    rfl
  rw [hsetup]
  refine ⟨flushing, made, rest, ?_, hkept, hlength, hsaid, hreads, houtcome⟩
  rw [hmade, List.append_assoc]

/-- Whatever the controller and the mouse answer, the driver writes to a port
only after it has read that the input buffer is clear, and reads data only
after it has read that the output buffer is full, directly before. The flush
only reads, and neither it nor the rest makes more than so many accesses;
without a framebuffer there are none. -/
theorem setup_polite (m : Mouse) (v : Video) (d : Device UInt16 UInt8)
    (h : History UInt16 UInt8) :
    ∃ flushing made, (mouseInit m v d h).2.2 = h ++ (flushing ++ made) ∧
      manners.Kept (flushing ++ made) ∧
      (∀ a ∈ manners.said flushing, ∃ value, a = .read ps2DataPort value) ∧
      flushing.length ≤ 128 ∧ made.length ≤ talkBound ∧
      (v.available = false → flushing ++ made = []) := by
  unfold mouseInit
  split_ifs with hv
  · obtain ⟨flushing, made, rest, hmade, hkept, hlength, -, hreads, houtcome⟩ := setup_outcome d h
    exact ⟨flushing, made, hmade, kept_append manners flushing made hkept houtcome.kept, hreads,
      hlength, houtcome.bounded, fun hn => absurd (hv.symm.trans hn) Bool.noConfusion⟩
  · exact ⟨[], [], (List.append_nil h).symm, kept_nil manners,
      fun a ha => absurd ha List.not_mem_nil, Nat.zero_le _, Nat.zero_le _, fun _ => rfl⟩

/-- With a framebuffer and whatever the controller and the mouse answer: after
the flush the driver and its devices follow the script of the setup; the mouse
is ready exactly if they have come to its end; and if it is not, a command was
refused or a wait was in vain. -/
theorem setup_follows (m : Mouse) (v : Video) (d : Device UInt16 UInt8)
    (h : History UInt16 UInt8) (hv : v.available = true) :
    ∃ made flushed talk, (mouseInit m v d h).2.2 = h ++ made ∧
      manners.said made = flushed ++ talk ∧ flushed.length ≤ 64 ∧
      (∀ a ∈ flushed, ∃ value, a = .read ps2DataPort value) ∧
      (∃ rest, Leads mouseScript talk rest) ∧
      ((mouseInit m v d h).1.ready = true ↔ ∃ config, talk = dialogue config) ∧
      ((mouseInit m v d h).1.ready = false →
        Refused talk ∨ manners.TimedOut mouseWaitAttempts made) := by
  obtain ⟨flushing, made, rest, hmade, -, -, hsaid, hreads, houtcome⟩ := setup_outcome d h
  have hports : (mouseInit m v d h).2.2 = h ++ (flushing ++ made) := by
    rw [mouseInit, if_pos hv]
    exact hmade
  have hready : (mouseInit m v d h).1.ready = rest.value.isSome := by
    rw [mouseInit, if_pos hv, ← houtcome.result]
    show (v.available && _) = _
    rw [hv, Bool.true_and]
  refine ⟨flushing ++ made, manners.said flushing, manners.said made, hports,
    said_append manners flushing made, hsaid, hreads, ⟨rest, houtcome.leads⟩, ?_, ?_⟩
  · rw [hready]
    constructor
    · intro hsome
      have hdone : rest = .done () := by
        cases rest with
        | done => rfl
        | refuse | say _ _ _ | hear _ _ => exact absurd hsome Bool.false_ne_true
      rcases script_ends (.inr ⟨(), hdone⟩) houtcome.leads with ⟨-, htalk⟩ | ⟨hrefuse, -⟩
      · exact htalk
      · cases hdone.symm.trans hrefuse
    · rintro ⟨config, htalk⟩
      have hleads := houtcome.leads
      rw [htalk] at hleads
      rw [leads_functional hleads (dialogue_leads config)]
      rfl
  · intro hnot
    rw [hready] at hnot
    have hnone := Option.isNone_iff_eq_none.mp (Option.isSome_eq_false_iff.mp hnot)
    rcases houtcome.failed hnone with hrefuse | htimedOut
    · rcases script_ends (.inl hrefuse) houtcome.leads with ⟨hdone, -⟩ | ⟨-, hrefused⟩
      · cases hdone.symm.trans hrefuse
      · exact .inl hrefused
    · exact .inr (timedOut_append manners mouseWaitAttempts flushing made htimedOut)

def agreeing : Device UInt16 UInt8 := fun _ port =>
  if port = ps2StatusPort then ps2StatusOutputFull else mouseAck

theorem setup_follows_agreeing : ∃ flushed made config,
    (mouseInit mouse screen agreeing []).2.2 = made ∧
      manners.said made = flushed ++ dialogue config := by
  have hready : (mouseInit mouse screen agreeing []).1.ready = true := by decide +kernel
  obtain ⟨made, flushed, talk, hmade, hsaid, -, -, -, hiff, -⟩ :=
    setup_follows mouse screen agreeing [] rfl
  obtain ⟨config, rfl⟩ := hiff.mp hready
  exact ⟨flushed, made, config, hmade, hsaid⟩

end Hnmos.MouseSetup
