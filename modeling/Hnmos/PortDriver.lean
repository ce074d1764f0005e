import Mathlib

/-!
# Drivers that talk to ports

A device answers a read of a port as it likes, given all that has been read
and written before. A driver reads and writes ports, waits for a status with a
bounded number of reads, and may fail. A script is what a driver and its
device say to each other, without the waiting. On every device a driver that
follows a script says what the script says, and fails only where the script
refuses or when the device is never ready.
-/

set_option autoImplicit false

namespace Hnmos.PortDriver

inductive Access (π ν : Type) where
  | read (port : π) (value : ν)
  | write (port : π) (value : ν)
  deriving DecidableEq

abbrev History (π ν : Type) := List (Access π ν)

abbrev Device (π ν : Type) := History π ν → π → ν

/-- A driver lengthens the history. -/
def Driver (π ν ε α : Type) := Device π ν → History π ν → Except ε α × History π ν

variable {π ν ε α β γ : Type}

def Driver.after (r : Except ε α × History π ν) (f : α → Driver π ν ε β) (d : Device π ν) :
    Except ε β × History π ν :=
  match r.1 with
  | .ok a => f a d r.2
  | .error e => (.error e, r.2)

instance : Monad (Driver π ν ε) where
  pure a := fun _ h => (.ok a, h)
  bind p f := fun d h => Driver.after (p d h) f d

def fail (e : ε) : Driver π ν ε α := fun _ h => (.error e, h)

def inb (port : π) : Driver π ν ε ν := fun d h => (.ok (d h port), h ++ [.read port (d h port)])

def outb (port : π) (value : ν) : Driver π ν ε Unit := fun _ h => (.ok (), h ++ [.write port value])

def waitFor (port : π) (good : ν → Bool) : ℕ → Driver π ν Unit Unit
  | 0 => fail ()
  | n + 1 => do
    let value ← inb port
    if good value then pure () else waitFor port good n

def Driver.failing (message : ε) (p : Driver π ν Unit α) : Driver π ν ε α :=
  fun d h => ((p d h).1.mapError fun _ => message, (p d h).2)

inductive Script (π ν α : Type) where
  | done (value : α)
  | refuse
  | say (port : π) (value : ν) (next : Script π ν α)
  | hear (port : π) (next : ν → Script π ν α)

def Script.bind : Script π ν α → (α → Script π ν β) → Script π ν β
  | .done a, f => f a
  | .refuse, _ => .refuse
  | .say port value next, f => .say port value (next.bind f)
  | .hear port next, f => .hear port fun value => (next value).bind f

def Script.value : Script π ν α → Option α
  | .done a => some a
  | _ => none

/-- What has been said leads from one script to the rest of it. -/
inductive Leads : Script π ν α → History π ν → Script π ν α → Prop where
  | here (s : Script π ν α) : Leads s [] s
  | say (port : π) (value : ν) {next rest : Script π ν α} {talk : History π ν}
      (h : Leads next talk rest) : Leads (.say port value next) (.write port value :: talk) rest
  | hear (port : π) (value : ν) {next : ν → Script π ν α} {rest : Script π ν α}
      {talk : History π ν} (h : Leads (next value) talk rest) :
      Leads (.hear port next) (.read port value :: talk) rest

theorem leads_append {s t u : Script π ν α} {talk more : History π ν} (h : Leads s talk t)
    (hmore : Leads t more u) : Leads s (talk ++ more) u := by
  induction h with
  | here s => exact hmore
  | say port value _ ih => exact .say port value (ih hmore)
  | hear port value _ ih => exact .hear port value (ih hmore)

theorem leads_bind {s t : Script π ν α} {talk : History π ν} (f : α → Script π ν β)
    (h : Leads s talk t) : Leads (s.bind f) talk (t.bind f) := by
  induction h with
  | here s => exact .here _
  | say port value _ ih => exact .say port value ih
  | hear port value _ ih => exact .hear port value ih

theorem leads_functional {s t u : Script π ν α} {talk : History π ν} (ht : Leads s talk t)
    (hu : Leads s talk u) : t = u := by
  induction ht with
  | here s =>
    cases hu
    rfl
  | say port value _ ih =>
    cases hu with
    | say _ _ hu => exact ih hu
  | hear port value _ ih =>
    cases hu with
    | hear _ _ hu => exact ih hu

def Script.Closed (s : Script π ν α) : Prop := s = .refuse ∨ ∃ a, s = .done a

theorem leads_say {port : π} {value : ν} {next rest : Script π ν α} {talk : History π ν}
    (hclosed : rest.Closed) (h : Leads (.say port value next) talk rest) :
    ∃ more, talk = .write port value :: more ∧ Leads next more rest := by
  cases h with
  | here =>
    rcases hclosed with hrest | ⟨a, hrest⟩
    · cases hrest
    · cases hrest
  | say _ _ h => exact ⟨_, rfl, h⟩

theorem leads_hear {port : π} {next : ν → Script π ν α} {rest : Script π ν α}
    {talk : History π ν} (hclosed : rest.Closed) (h : Leads (.hear port next) talk rest) :
    ∃ value more, talk = .read port value :: more ∧ Leads (next value) more rest := by
  cases h with
  | here =>
    rcases hclosed with hrest | ⟨a, hrest⟩
    · cases hrest
    · cases hrest
  | hear _ value h => exact ⟨value, _, rfl, h⟩

theorem value_bind (s : Script π ν α) (f : α → Script π ν β) (h : s.value = none) :
    (s.bind f).value = none := by
  cases s with
  | done a => exact absurd h (Option.some_ne_none a)
  | refuse | say _ _ _ | hear _ _ => rfl

/-- The port with the status, and what has to be read from it directly before
an access. What needs nothing is waiting. -/
structure Manners (π ν : Type) where
  status : π
  awaited : Access π ν → Option (ν → Bool)

def Manners.said (m : Manners π ν) (made : History π ν) : History π ν :=
  made.filter fun a => (m.awaited a).isSome

def Manners.Kept (m : Manners π ν) (made : History π ν) : Prop :=
  ∀ front a back good, made = front ++ a :: back → m.awaited a = some good →
    ∃ value, front.getLast? = some (.read m.status value) ∧ good value = true

/-- The last accesses are so many readings of a status that is not awaited. -/
def Manners.TimedOut (m : Manners π ν) (n : ℕ) (made : History π ν) : Prop :=
  ∃ a good front waits, m.awaited a = some good ∧ made = front ++ waits ∧ waits.length = n ∧
    ∀ b ∈ waits, ∃ value, b = .read m.status value ∧ good value = false

theorem kept_nil (m : Manners π ν) : m.Kept [] :=
  fun front a back _ h => absurd h.symm (List.append_ne_nil_of_right_ne_nil front
    (List.cons_ne_nil a back))

theorem kept_append (m : Manners π ν) (made more : History π ν) (h : m.Kept made)
    (hmore : m.Kept more) : m.Kept (made ++ more) := by
  intro front a back good hsplit hgood
  rcases List.append_eq_append_iff.mp hsplit with ⟨rest, rfl, hrest⟩ | ⟨rest, rfl, hrest⟩
  · -- the access is one of the later ones
    obtain ⟨value, hlast, hvalue⟩ := hmore rest a back good hrest hgood
    refine ⟨value, ?_, hvalue⟩
    rw [List.getLast?_append, hlast]
    rfl
  · cases rest with
    | nil =>
      obtain ⟨value, hlast, -⟩ := hmore [] a back good hrest.symm hgood
      exact absurd hlast.symm (Option.some_ne_none _)
    | cons b rest =>
      obtain ⟨rfl, -⟩ := List.cons.inj hrest
      exact h front a rest good rfl hgood

theorem kept_waits (m : Manners π ν) (waits : History π ν)
    (hstatus : ∀ value, m.awaited (.read m.status value) = none)
    (hreads : ∀ a ∈ waits, ∃ value, a = .read m.status value) : m.Kept waits := by
  intro front a back good hsplit hgood
  obtain ⟨value, rfl⟩ := hreads a (by simp [hsplit])
  exact absurd (hgood.symm.trans (hstatus value)) (Option.some_ne_none good)

theorem kept_concat (m : Manners π ν) (waits : History π ν) (a : Access π ν) (good : ν → Bool)
    (value : ν) (h : m.Kept waits) (hgood : m.awaited a = some good)
    (hlast : waits.getLast? = some (.read m.status value)) (hvalue : good value = true) :
    m.Kept (waits ++ [a]) := by
  intro front b back other hsplit hother
  rcases List.eq_nil_or_concat back with rfl | ⟨back, c, rfl⟩
  · obtain ⟨rfl, hb⟩ := List.append_inj' hsplit rfl
    rw [← (List.cons.inj hb).1, hgood] at hother
    rw [← Option.some.inj hother]
    exact ⟨value, hlast, hvalue⟩
  · have hwaits : waits = front ++ b :: back := by
      have hsplit' : waits ++ [a] = (front ++ b :: back) ++ [c] := by
        rw [hsplit, List.append_assoc, List.cons_append, List.concat_eq_append]
      exact (List.append_inj' hsplit' rfl).1
    exact h front b back other hwaits hother

theorem said_append (m : Manners π ν) (made more : History π ν) :
    m.said (made ++ more) = m.said made ++ m.said more := List.filter_append made more

theorem timedOut_append (m : Manners π ν) (n : ℕ) (made more : History π ν)
    (h : m.TimedOut n more) : m.TimedOut n (made ++ more) := by
  obtain ⟨a, good, front, waits, hgood, rfl, hlength, hwaits⟩ := h
  exact ⟨a, good, made ++ front, waits, hgood, (List.append_assoc _ _ _).symm, hlength, hwaits⟩

/-- On every device and after every history the driver keeps to its manners,
makes so many accesses at most, says what the script says and has its result;
it fails where the script refuses, or when it has waited in vain. -/
structure Outcome (m : Manners π ν) (n bound : ℕ) (s : Script π ν α) (made : History π ν)
    (result : Except ε α) (rest : Script π ν α) : Prop where
  kept : m.Kept made
  bounded : made.length ≤ bound
  leads : Leads s (m.said made) rest
  result : result.toOption = rest.value
  failed : rest.value = none → rest = .refuse ∨ m.TimedOut n made

def Follows (m : Manners π ν) (n bound : ℕ) (p : Driver π ν ε α) (s : Script π ν α) : Prop :=
  ∀ d h, ∃ made rest, (p d h).2 = h ++ made ∧ Outcome m n bound s made (p d h).1 rest

variable {m : Manners π ν} {n bound extra : ℕ}

theorem follows_pure (a : α) : Follows m n 0 (pure a : Driver π ν ε α) (.done a) := fun _ h =>
  ⟨[], .done a, (List.append_nil h).symm, kept_nil m, Nat.le_refl 0, .here _, rfl,
    fun hnone => absurd hnone (Option.some_ne_none a)⟩

theorem follows_fail (e : ε) : Follows m n 0 (fail e : Driver π ν ε α) .refuse := fun _ h =>
  ⟨[], .refuse, (List.append_nil h).symm, kept_nil m, Nat.le_refl 0, .here _, rfl,
    fun _ => .inl rfl⟩

theorem follows_bind {p : Driver π ν ε α} {f : α → Driver π ν ε β} {s : Script π ν α}
    {t : α → Script π ν β} (hp : Follows m n bound p s)
    (hf : ∀ a, Follows m n extra (f a) (t a)) :
    Follows m n (bound + extra) (p >>= f) (s.bind t) := by
  intro d h
  obtain ⟨made, rest, hmade, hkept, hbounded, hleads, hresult, hfailed⟩ := hp d h
  show ∃ made rest, (Driver.after (p d h) f d).2 = h ++ made ∧
    Outcome m n (bound + extra) (s.bind t) made (Driver.after (p d h) f d).1 rest
  rw [Driver.after]
  cases hp : (p d h).1 with
  | error e =>
    rw [hp] at hresult
    have hvalue : rest.value = none := hresult.symm
    refine ⟨made, rest.bind t, hmade, hkept, hbounded.trans (Nat.le_add_right _ _),
      leads_bind t hleads, (value_bind rest t hvalue).symm, fun _ => ?_⟩
    rcases hfailed hvalue with rfl | htimedOut
    · exact .inl rfl
    · exact .inr htimedOut
  | ok a =>
    obtain ⟨more, last, hmore, hkept', hbounded', hleads', hresult', hfailed'⟩ := hf a d (p d h).2
    rw [hp] at hresult
    have hdone : rest = .done a := by
      cases rest with
      | done b => exact congrArg Script.done (Option.some.inj hresult).symm
      | refuse | say _ _ _ | hear _ _ => exact absurd hresult (Option.some_ne_none a)
    subst hdone
    refine ⟨made ++ more, last, ?_, kept_append m made more hkept hkept', ?_, ?_, hresult', ?_⟩
    · rw [hmore, hmade, List.append_assoc]
    · rw [List.length_append]
      exact Nat.add_le_add hbounded hbounded'
    · rw [said_append]
      exact leads_append (leads_bind t hleads) hleads'
    · intro hnone
      exact (hfailed' hnone).imp_right (timedOut_append m n made more)

theorem driver_assoc (p : Driver π ν ε α) (f : α → Driver π ν ε β) (g : β → Driver π ν ε γ) :
    p >>= f >>= g = p >>= fun a => f a >>= g := by
  funext d h
  show Driver.after (Driver.after (p d h) f d) g d = Driver.after (p d h) (fun a => f a >>= g) d
  unfold Driver.after
  cases (p d h).1 <;> rfl

theorem follows_then {p : Driver π ν ε α} {act : α → Driver π ν ε β} {f : β → Driver π ν ε γ}
    {s : Script π ν β} {t : β → Script π ν γ} (hp : Follows m n bound (p >>= act) s)
    (hf : ∀ b, Follows m n extra (f b) (t b)) :
    Follows m n (bound + extra) (p >>= fun a => act a >>= f) (s.bind t) := by
  rw [← driver_assoc]
  exact follows_bind hp hf

theorem follows_failing {p : Driver π ν Unit α} {s : Script π ν α} (message : ε)
    (hp : Follows m n bound p s) : Follows m n bound (p.failing message) s := by
  intro d h
  obtain ⟨made, rest, hmade, hkept, hbounded, hleads, hresult, hfailed⟩ := hp d h
  refine ⟨made, rest, hmade, hkept, hbounded, hleads, Eq.trans ?_ hresult, hfailed⟩
  show ((p d h).1.mapError _).toOption = _
  cases (p d h).1 <;> rfl

theorem waitFor_reads (good : ν → Bool) (k : ℕ) (d : Device π ν) (h : History π ν) :
    ∃ waits, (waitFor m.status good k d h).2 = h ++ waits ∧ waits.length ≤ k ∧
      (∀ a ∈ waits, ∃ value, a = .read m.status value) ∧
      (((waitFor m.status good k d h).1 = .ok () ∧
          ∃ value, waits.getLast? = some (.read m.status value) ∧ good value = true) ∨
        ((waitFor m.status good k d h).1 = .error () ∧ waits.length = k ∧
          ∀ a ∈ waits, ∃ value, a = .read m.status value ∧ good value = false)) := by
  induction k generalizing h with
  | zero =>
    exact ⟨[], (List.append_nil h).symm, Nat.le_refl 0, fun a ha => absurd ha List.not_mem_nil,
      .inr ⟨rfl, rfl, fun a ha => absurd ha List.not_mem_nil⟩⟩
  | succ k ih =>
    have hstep : waitFor m.status good (k + 1) d h =
        (if good (d h m.status) then (pure () : Driver π ν Unit Unit)
          else waitFor m.status good k) d (h ++ [.read m.status (d h m.status)]) := rfl
    rw [hstep]
    cases hgood : good (d h m.status) with
    | true =>
      refine ⟨[.read m.status (d h m.status)], rfl, by simp, ?_, .inl ⟨rfl, _, rfl, hgood⟩⟩
      intro a ha
      exact ⟨_, List.mem_singleton.mp ha⟩
    | false =>
      rw [if_neg Bool.false_ne_true]
      obtain ⟨waits, hwaits, hlength, hreads, hend⟩ := ih (h ++ [.read m.status (d h m.status)])
      refine ⟨.read m.status (d h m.status) :: waits, ?_, Nat.succ_le_succ hlength, ?_, ?_⟩
      · rw [hwaits, List.append_assoc]
        rfl
      · intro a ha
        rcases List.mem_cons.mp ha with rfl | ha
        · exact ⟨_, rfl⟩
        · exact hreads a ha
      · rcases hend with ⟨hok, value, hlast, hvalue⟩ | ⟨herror, hall, hbusy⟩
        · refine .inl ⟨hok, value, ?_, hvalue⟩
          rw [List.getLast?_cons, hlast]
          rfl
        · refine .inr ⟨herror, congrArg Nat.succ hall, ?_⟩
          intro a ha
          rcases List.mem_cons.mp ha with rfl | ha
          · exact ⟨_, rfl, hgood⟩
          · exact hbusy a ha

theorem follows_waiting {good : ν → Bool} {act : Driver π ν Unit α} {s : Script π ν α}
    (hstatus : ∀ value, m.awaited (.read m.status value) = none)
    (hact : ∀ d h, ∃ a rest, (act d h).2 = h ++ [a] ∧ m.awaited a = some good ∧ Leads s [a] rest ∧
      (act d h).1.toOption = rest.value ∧ rest.value ≠ none)
    (hawaited : ∃ a, m.awaited a = some good) (hs : s.value = none) :
    Follows m n (n + 1) (waitFor m.status good n >>= fun _ => act) s := by
  intro d h
  obtain ⟨waits, hwaits, hlength, hreads, hend⟩ := waitFor_reads (m := m) good n d h
  have hkept := kept_waits m waits hstatus hreads
  have hsaid : m.said waits = [] := by
    apply List.filter_eq_nil_iff.mpr
    intro a ha
    obtain ⟨value, rfl⟩ := hreads a ha
    rw [hstatus value]
    exact Bool.false_ne_true
  show ∃ made rest, (Driver.after (waitFor m.status good n d h) (fun _ => act) d).2 = h ++ made ∧
    Outcome m n (n + 1) s made (Driver.after (waitFor m.status good n d h) (fun _ => act) d).1 rest
  rw [Driver.after]
  rcases hend with ⟨hok, value, hlast, hvalue⟩ | ⟨herror, hall, hbusy⟩
  · rw [hok]
    obtain ⟨a, rest, hmade, hgood, hleads, hresult, hdone⟩ :=
      hact d (waitFor m.status good n d h).2
    refine ⟨waits ++ [a], rest, ?_, ?_, ?_, ?_, hresult, fun hnone => absurd hnone hdone⟩
    · rw [hmade, hwaits, List.append_assoc]
    · exact kept_concat m waits a good value hkept hgood hlast hvalue
    · rw [List.length_append]
      exact Nat.succ_le_succ hlength
    · rw [said_append, hsaid, List.nil_append, Manners.said,
        List.filter_cons_of_pos (by rw [hgood]; rfl), List.filter_nil]
      exact hleads
  · rw [herror]
    obtain ⟨a, hgood⟩ := hawaited
    refine ⟨waits, s, hwaits, hkept, hlength.trans (Nat.le_succ n), ?_, hs.symm, fun _ => .inr ?_⟩
    · rw [hsaid]
      exact .here s
    · exact ⟨a, good, [], waits, hgood, rfl, hall, hbusy⟩

theorem follows_outb {good : ν → Bool} (port : π) (value : ν)
    (hstatus : ∀ value, m.awaited (.read m.status value) = none)
    (hawaited : m.awaited (.write port value) = some good) :
    Follows m n (n + 1) (waitFor m.status good n >>= fun _ => outb port value)
      (.say port value (.done ())) := by
  apply follows_waiting hstatus _ ⟨_, hawaited⟩ rfl
  intro d h
  exact ⟨_, _, rfl, hawaited, .say port value (.here _), rfl, Option.some_ne_none ()⟩

theorem follows_inb {good : ν → Bool} (port : π) (value : ν)
    (hstatus : ∀ value, m.awaited (.read m.status value) = none)
    (hawaited : ∀ value, m.awaited (.read port value) = some good) :
    Follows m n (n + 1) (waitFor m.status good n >>= fun _ => inb port) (.hear port .done) := by
  apply follows_waiting hstatus _ ⟨_, hawaited value⟩ rfl
  intro d h
  exact ⟨_, _, rfl, hawaited _, .hear port _ (.here _), rfl, Option.some_ne_none _⟩

end Hnmos.PortDriver
