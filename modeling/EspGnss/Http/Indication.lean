import EspGnss.Http.Delivery
import EspGnss.Http.Wakeup
import Mathlib.Data.Nat.Bits

/-! # What the LED shows

The counters may change any number of times between two looks of the LED task. Without
clients the LED comes to rest off. With clients it shows the parity of the packets of the
present clients, together with what earlier ones have left over.
-/

namespace EspGnss.Http

open Foundation HttpCall

variable {workers : Nat}

/-- What the calls of the LED task come to. -/
structure LedIndication where
  /-- The level of the pin. -/
  level : Bool
  /-- The level that the counters taken so far ask for. -/
  shown : Bool
  /-- `ESP_ERROR_CHECK` has failed. -/
  aborted : Bool
  deriving DecidableEq, Repr

def LedIndication.after (indication : LedIndication) : HttpEvent workers → LedIndication
  | ⟨gpioSetLevel level, err⟩ => if err = espOk then { indication with level } else indication
  | ⟨ledCountersTake, counters⟩ =>
      { indication with shown :=
          if counters.connectedClientCount = 0 then false
          else indication.shown ^^ counters.packetToggles.toNat.bodd }
  | ⟨abort, _⟩ => { indication with aborted := true }
  | _ => indication

/-- The pin shows `ledOn`, and so it should. -/
structure LedIndication.AtRest (indication : LedIndication) (ledOn : Bool) : Prop where
  shown : indication.shown = ledOn
  level : indication.aborted = false → indication.level = ledOn

/-- Watches the pin. The LED task waits only when the pin is as it should be. -/
@[simps] def indicationMonitor : Monitor (@HttpCall.Reply workers) LedIndication where
  allows indication c := HttpTask.makes .led c ∧ (c = notifyTake .forever → indication.AtRest indication.shown)
  observe := LedIndication.after

/-- `led_on` at the start of a round. -/
def HttpRound.ledOn : HttpRound → Bool
  | indicating ledOn => ledOn
  | _ => false

section After

variable (indication : LedIndication) (level : Bool) (err : EspErr)

@[simp] theorem after_gpioSetLevel_shown :
    (indication.after (⟨gpioSetLevel level, err⟩ : HttpEvent workers)).shown = indication.shown := by
  rw [LedIndication.after]
  split <;> rfl

@[simp] theorem after_gpioSetLevel_aborted :
    (indication.after (⟨gpioSetLevel level, err⟩ : HttpEvent workers)).aborted = indication.aborted := by
  rw [LedIndication.after]
  split <;> rfl

@[simp] theorem after_gpioSetLevel_level :
    (indication.after (⟨gpioSetLevel level, err⟩ : HttpEvent workers)).level =
      if err = espOk then level else indication.level := by
  rw [LedIndication.after]
  split <;> rfl

@[simp] theorem after_abort :
    indication.after (⟨abort, ()⟩ : HttpEvent workers) = { indication with aborted := true } := rfl

@[simp] theorem after_notifyTake (wait : NotifyWait) (notified : Nat) :
    indication.after (⟨notifyTake wait, notified⟩ : HttpEvent workers) = indication := rfl

@[simp] theorem after_ledCountersTake (counters : LedReply) :
    indication.after (⟨ledCountersTake, counters⟩ : HttpEvent workers) =
      { indication with shown :=
          if counters.connectedClientCount = 0 then false
          else indication.shown ^^ counters.packetToggles.toNat.bodd } := rfl

end After

/-- Setting the pin with `ESP_ERROR_CHECK` leaves it at the level, or aborts. -/
theorem gpioSet_indicates {α : Type} {level : Bool} {rest : HttpProgram workers α} {indication : LedIndication}
    {post : LedIndication → α → Prop}
    (onward : ∀ later : LedIndication, later.shown = indication.shown →
      (later.aborted = false → later.level = level) → rest.Meets indicationMonitor post later) :
    (do
      let err ← call (gpioSetLevel level)
      espErrorCheck err
      rest : HttpProgram workers α).Meets indicationMonitor post indication := by
  simp [espErrorCheck]
  intro err
  split
  · apply onward
    · simp
    · intro _
      simp [*]
  · apply onward <;> simp

theorem genericTaskToggle_indicates {toggles : Nat} {ledOn : Bool} {indication : LedIndication}
    (shown : indication.shown = (ledOn ^^ toggles.bodd))
    (level : indication.aborted = false → indication.level = ledOn) :
    (genericTaskToggle toggles ledOn : HttpProgram workers Bool).Meets indicationMonitor
      (fun indication ledOn => indication.AtRest ledOn) indication := by
  induction toggles generalizing ledOn indication with
  | zero => exact ⟨by simpa using shown, level⟩
  | succ toggles ih =>
      rw [genericTaskToggle]
      apply gpioSet_indicates
      intro later same level
      apply ih _ level
      rw [same, shown, Nat.bodd_succ]
      cases ledOn <;> simp

theorem genericTaskBlink_indicates {indication : LedIndication} (off : indication.shown = false) :
    (genericTaskBlink : HttpProgram workers Unit).Meets indicationMonitor
      (fun indication _ => indication.AtRest false) indication := by
  rw [genericTaskBlink]
  apply gpioSet_indicates
  intro later same _
  refine ⟨⟨rfl, by simp⟩, fun _ => ?_⟩
  apply gpioSet_indicates
  intro last same' level
  refine ⟨⟨rfl, by simp⟩, fun _ => ?_⟩
  exact ⟨same'.trans (same.trans off), level⟩

theorem genericTaskLoop_indicates {ledOn : Bool} {indication : LedIndication} (rest : indication.AtRest ledOn) :
    (genericTaskLoop ledOn : HttpProgram workers Bool).Meets indicationMonitor
      (fun indication ledOn => indication.AtRest ledOn) indication := by
  have waits : indication.AtRest indication.shown := by
    rw [rest.shown]
    exact rest
  rw [genericTaskLoop]
  refine ⟨⟨rfl, fun _ => waits⟩, fun _ => ⟨⟨rfl, by simp⟩, fun counters => ?_⟩⟩
  apply CallTree.meets_ite.mpr
  split
  · rename_i none
    apply gpioSet_indicates
    intro later same level
    have off : later.shown = false := by rw [same]; simp [none]
    exact ⟨off, level⟩
  · rename_i some
    apply genericTaskToggle_indicates
    · simp [some, rest.shown]
    · exact rest.level

theorem led_indicates_round {round : HttpRound} {indication : LedIndication}
    (runs : HttpTask.runs (.led : HttpTask workers) round) (rest : indication.AtRest round.ledOn) :
    (round.program : HttpProgram workers HttpRound).Meets indicationMonitor
      (fun indication round => HttpTask.runs (.led : HttpTask workers) round ∧ indication.AtRest round.ledOn)
      indication := by
  cases round with
  | blinking blink =>
      rw [HttpRound.program]
      split
      · apply CallTree.meets_bind.mpr
        apply (genericTaskBlink_indicates rest.shown).mono
        intro later _ off
        exact ⟨rfl, off⟩
      · exact ⟨rfl, rest⟩
  | indicating ledOn =>
      apply CallTree.meets_bind.mpr
      apply (genericTaskLoop_indicates rest).mono
      intro later ledOn rest
      exact ⟨rfl, rest⟩
  | _ => cases runs

/-- What the calls so far come to. -/
structure LedSession (workers : Nat) where
  shared : HttpShared workers
  indication : LedIndication
  /-- The packets counted since the client count was last zero. -/
  packets : Nat
  /-- What the LED was to show when a client last connected and there was no other. -/
  inherited : Bool

namespace LedSession

def initial : LedSession workers := ⟨.initial, ⟨false, false, false⟩, 0, false⟩

/-- The level that the LED has to show once it has taken the pending toggles. -/
def due (session : LedSession workers) : Bool :=
  session.indication.shown ^^ session.shared.pendingPacketToggles.toNat.bodd

def after (session : LedSession workers) (step : HttpStep workers) : LedSession workers :=
  let shared := session.shared.observe step.task step.event
  { shared
    indication := session.indication.after step.event
    packets :=
      if shared.connectedClientCount = 0 then 0
      else if session.shared.pendingPacketToggles < shared.pendingPacketToggles then session.packets + 1
      else session.packets
    inherited :=
      if step.event.call = ledClientConnected ∧ session.shared.connectedClientCount = 0 then session.due
      else session.inherited }

end LedSession

def ledSession (history : List (HttpStep workers)) : LedSession workers := history.foldl LedSession.after .initial

/-- The level of the pin. -/
def ledLevel (history : List (HttpStep workers)) : Bool := (ledSession history).indication.level

/-- The packets counted since the client count was last zero. -/
def packetsSinceZero (history : List (HttpStep workers)) : Nat := (ledSession history).packets

theorem ledSession_snoc (history : List (HttpStep workers)) (step : HttpStep workers) :
    ledSession (history ++ [step]) = (ledSession history).after step := by
  rw [ledSession, List.foldl_append]
  rfl

theorem after_shown {indication : LedIndication} {event : HttpEvent workers} (other : event.call ≠ ledCountersTake) :
    (indication.after event).shown = indication.shown := by
  obtain ⟨c, reply⟩ := event
  cases c with
  | ledCountersTake => exact absurd rfl other
  | gpioSetLevel level => exact after_gpioSetLevel_shown indication level reply
  | _ => rfl

/-- Other calls leave the counters as they are. -/
theorem observe_led {t : HttpTask workers} {shared : HttpShared workers} {event : HttpEvent workers}
    (quiet : updatesLed event.call = false) (other : event.call ≠ ledCountersTake) :
    (shared.observe t event).connectedClientCount = shared.connectedClientCount ∧
      (shared.observe t event).pendingPacketToggles = shared.pendingPacketToggles := by
  obtain ⟨c, reply⟩ := event
  cases c with
  | ledClientConnected | ledClientDisconnected | ledPacketConsumed => cases quiet
  | ledCountersTake => exact absurd rfl other
  | requestQueueSend used asyncReq => cases reply <;> exact ⟨rfl, rfl⟩
  | notifyTake wait => cases t <;> exact ⟨rfl, rfl⟩
  | _ => exact ⟨rfl, rfl⟩

theorem toggles_succ {toggles : UInt32} (room : toggles < 0xFFFFFFFF) :
    toggles < toggles + 1 ∧ (toggles + 1).toNat.bodd = !toggles.toNat.bodd := by
  have inside : toggles.toNat < 4294967295 := UInt32.lt_iff_toNat_lt.mp room
  have next : (toggles + 1).toNat = toggles.toNat + 1 := by
    have one : (1 : UInt32).toNat = 1 := rfl
    rw [UInt32.toNat_add, one, Nat.mod_eq_of_lt (by omega)]
  rw [UInt32.lt_iff_toNat_lt, next]
  exact ⟨Nat.lt_succ_self _, Nat.bodd_succ _⟩

namespace LedSession

/-- With clients, what the LED has to show is the parity of their packets and what they
    have inherited. -/
structure Balanced (session : LedSession workers) : Prop where
  idle : session.shared.connectedClientCount = 0 → session.packets = 0
  due : session.shared.connectedClientCount ≠ 0 → session.due = (session.packets.bodd ^^ session.inherited)

variable {session : LedSession workers} {t : HttpTask workers} {c : HttpCall workers} {reply : c.Reply}

theorem after_packets_zero (none : (session.shared.observe t ⟨c, reply⟩).connectedClientCount = 0) :
    (session.after ⟨t, ⟨c, reply⟩⟩).packets = 0 := if_pos none

theorem after_packets (some : (session.shared.observe t ⟨c, reply⟩).connectedClientCount ≠ 0) :
    (session.after ⟨t, ⟨c, reply⟩⟩).packets =
      if session.shared.pendingPacketToggles < (session.shared.observe t ⟨c, reply⟩).pendingPacketToggles then
        session.packets + 1
      else session.packets := if_neg some

theorem after_inherited (other : c = ledClientConnected → session.shared.connectedClientCount ≠ 0) :
    (session.after ⟨t, ⟨c, reply⟩⟩).inherited = session.inherited :=
  if_neg fun first => other first.1 first.2

theorem after_due (other : c ≠ ledCountersTake) :
    (session.after ⟨t, ⟨c, reply⟩⟩).due =
      (session.indication.shown ^^
        (session.shared.observe t ⟨c, reply⟩).pendingPacketToggles.toNat.bodd) :=
  congrArg (· ^^ _) (@after_shown _ session.indication ⟨c, reply⟩ other)

/-- A call that leaves the toggles alone and does not end a time without clients. -/
theorem Balanced.keep (balanced : session.Balanced) (other : c ≠ ledCountersTake)
    (clients : session.shared.connectedClientCount = 0 →
      c ≠ ledClientConnected ∧ (session.shared.observe t ⟨c, reply⟩).connectedClientCount = 0)
    (toggles : (session.shared.observe t ⟨c, reply⟩).pendingPacketToggles = session.shared.pendingPacketToggles) :
    (session.after ⟨t, ⟨c, reply⟩⟩).Balanced := by
  refine ⟨after_packets_zero, fun some => ?_⟩
  have clientsBefore : session.shared.connectedClientCount ≠ 0 := fun none => some (clients none).2
  have packets : (session.after ⟨t, ⟨c, reply⟩⟩).packets = session.packets := by
    rw [after_packets some, toggles, if_neg (UInt32.lt_irrefl _)]
  rw [after_due other, toggles, packets, after_inherited fun _ => clientsBefore]
  exact balanced.due clientsBefore

/-- The first client inherits what the LED was to show. -/
theorem Balanced.connect (balanced : session.Balanced) :
    (session.after ⟨t, ⟨ledClientConnected, ()⟩⟩).Balanced := by
  by_cases none : session.shared.connectedClientCount = 0
  · have one : (session.shared.observe t ⟨ledClientConnected, ()⟩).connectedClientCount ≠ 0 := by
      simp [HttpShared.observe, none]
    have toggles : (session.shared.observe t ⟨ledClientConnected, ()⟩).pendingPacketToggles =
      session.shared.pendingPacketToggles := rfl
    have packets : (session.after ⟨t, ⟨ledClientConnected, ()⟩⟩).packets = 0 := by
      rw [after_packets one, toggles, if_neg (UInt32.lt_irrefl _)]
      exact balanced.idle none
    have inherited : (session.after ⟨t, ⟨ledClientConnected, ()⟩⟩).inherited = session.due := if_pos ⟨rfl, none⟩
    refine ⟨after_packets_zero, fun _ => ?_⟩
    rw [packets, inherited, Nat.bodd_zero, Bool.false_xor]
    rfl
  · exact balanced.keep (by simp) (fun zero => absurd zero none) rfl

theorem Balanced.disconnect (balanced : session.Balanced) :
    (session.after ⟨t, ⟨ledClientDisconnected, ()⟩⟩).Balanced := by
  apply balanced.keep (by simp)
  · intro none
    simp [HttpShared.observe, none]
  · rw [HttpShared.observe]
    split <;> rfl

theorem Balanced.packet (balanced : session.Balanced) :
    (session.after ⟨t, ⟨ledPacketConsumed, ()⟩⟩).Balanced := by
  by_cases counted : session.shared.connectedClientCount > 0 ∧ session.shared.pendingPacketToggles < 0xFFFFFFFF
  · have observed : session.shared.observe t ⟨ledPacketConsumed, ()⟩ =
        { session.shared with pendingPacketToggles := session.shared.pendingPacketToggles + 1 } := if_pos counted
    obtain ⟨more, flipped⟩ := toggles_succ counted.2
    have some : session.shared.connectedClientCount ≠ 0 := by
      intro none
      rw [none] at counted
      cases counted.1
    refine ⟨after_packets_zero, fun _ => ?_⟩
    rw [after_due (by simp), after_packets (by rw [observed]; exact some), after_inherited (by simp), observed,
      if_pos more, flipped, Nat.bodd_succ, Bool.xor_not, Bool.not_xor]
    exact congrArg (!·) (balanced.due some)
  · have observed : session.shared.observe t ⟨ledPacketConsumed, ()⟩ = session.shared := if_neg counted
    apply balanced.keep (by simp)
    · intro none
      rw [observed]
      exact ⟨by simp, none⟩
    · rw [observed]

/-- The LED task takes over what was pending. -/
theorem Balanced.take (balanced : session.Balanced) {counters : LedReply}
    (taken : counters = ⟨session.shared.connectedClientCount, session.shared.pendingPacketToggles⟩) :
    (session.after ⟨t, ⟨ledCountersTake, counters⟩⟩).Balanced := by
  refine ⟨after_packets_zero, fun some => ?_⟩
  have clients : session.shared.connectedClientCount ≠ 0 := some
  have packets : (session.after ⟨t, ⟨ledCountersTake, counters⟩⟩).packets = session.packets := by
    rw [after_packets some]
    exact if_neg UInt32.not_lt_zero
  have due : (session.after ⟨t, ⟨ledCountersTake, counters⟩⟩).due = session.due := by
    simp [LedSession.due, after, HttpShared.observe, taken, clients]
  rw [due, packets, after_inherited (by simp)]
  exact balanced.due clients

/-- What one call does. -/
theorem Balanced.step (balanced : session.Balanced) {answer : (c : HttpCall workers) → c.Reply}
    (replied : session.shared.reply t answer c = some reply) : (session.after ⟨t, ⟨c, reply⟩⟩).Balanced := by
  cases c with
  | ledClientConnected => exact balanced.connect
  | ledClientDisconnected => exact balanced.disconnect
  | ledPacketConsumed => exact balanced.packet
  | ledCountersTake => exact balanced.take (Option.some.inj replied).symm
  | _ =>
      obtain ⟨clients, toggles⟩ := @observe_led _ t session.shared ⟨_, reply⟩ rfl (by simp)
      exact balanced.keep (by simp) (fun none => ⟨by simp, clients.trans none⟩) toggles

end LedSession

theorem ledSession_of_exec {history s} (run : (httpSystem workers).Exec history s) :
    (ledSession history).shared = s.shared ∧ (ledSession history).Balanced := by
  induction run with
  | start first =>
      cases first
      exact ⟨rfl, fun _ => rfl, fun some => absurd rfl some⟩
  | next _ step ih =>
      obtain ⟨same, balanced⟩ := ih
      cases Tasks.Transition.of_next _ step with
      | restart => simpa using ⟨same, balanced⟩
      | perform _ replied =>
          rw [ledSession_snoc]
          rw [← same] at replied
          exact ⟨congrArg (HttpShared.observe _ · _) same, balanced.step replied⟩

abbrev IndicationGhost : HttpTask workers → Type
  | .led => LedIndication
  | .httpd | .dispatcher | .streamWorker _ | .writeWorker | .gnss => Unit

def IndicationGhost.initial : (t : HttpTask workers) → IndicationGhost t
  | .led => ⟨false, false, false⟩
  | .httpd | .dispatcher | .streamWorker _ | .writeWorker | .gnss => ()

def indicationOutline (workers : Nat) :
    Outline (HttpTask workers) (@HttpCall.Reply workers) HttpRound IndicationGhost where
  observe
    | .led => indicationMonitor.observe
    | .httpd | .dispatcher | .streamWorker _ | .writeWorker | .gnss => fun _ _ => ()
  allows
    | .led, _ => indicationMonitor.allows
    | .httpd, _ => fun _ c => HttpTask.makes .httpd c
    | .dispatcher, _ => fun _ c => HttpTask.makes .dispatcher c
    | .streamWorker index, _ => fun _ c => HttpTask.makes (.streamWorker index) c
    | .writeWorker, _ => fun _ c => HttpTask.makes .writeWorker c
    | .gnss, _ => fun _ c => HttpTask.makes .gnss c
  head
    | .led, round, indication => HttpTask.runs (.led : HttpTask workers) round ∧ indication.AtRest round.ledOn
    | .httpd, round, _ => HttpTask.runs (.httpd : HttpTask workers) round
    | .dispatcher, round, _ => HttpTask.runs (.dispatcher : HttpTask workers) round
    | .streamWorker index, round, _ => HttpTask.runs (.streamWorker index) round
    | .writeWorker, round, _ => HttpTask.runs (.writeWorker : HttpTask workers) round
    | .gnss, round, _ => HttpTask.runs (.gnss : HttpTask workers) round

theorem indication_keeps {t : HttpTask workers} {round : HttpRound} {ghost : IndicationGhost t}
    (head : (indicationOutline workers).head t round ghost) :
    (indicationOutline workers).Keeps t ((httpTasks workers).begin t round) ghost := by
  cases t with
  | led => exact led_indicates_round head.1 head.2
  | httpd | dispatcher | streamWorker | writeWorker | gnss => exact program_makes head

/-- `indication` is what the calls so far come to. The LED task has not aborted, and with
    no client at its last look it shows none. -/
structure Indicates (history : List (HttpStep workers)) (indication : LedIndication) : Prop where
  same : (ledSession history).indication = indication
  alive : indication.aborted = false
  idle : lastClientCount history = 0 → indication.shown = false

section Steps

variable {history : List (HttpStep workers)} {shared : HttpShared workers} {indication : LedIndication}
  {answer : (c : HttpCall workers) → c.Reply} {c : HttpCall workers} {reply : c.Reply}

theorem Indicates.works (indicates : Indicates history indication)
    (replied : shared.reply .led answer c = some reply) :
    Indicates (history ++ [⟨.led, ⟨c, reply⟩⟩]) (indication.after ⟨c, reply⟩) := by
  constructor
  · rw [ledSession_snoc, ← indicates.same]
    rfl
  · cases c with
    | abort => cases replied
    | gpioSetLevel level => exact (after_gpioSetLevel_aborted indication level reply).trans indicates.alive
    | _ => exact indicates.alive
  · intro none
    by_cases taken : c = ledCountersTake
    · subst taken
      rw [lastClientCount, List.foldl_append] at none
      exact if_pos none
    · rw [lastClientCount_snoc taken] at none
      rw [after_shown taken]
      exact indicates.idle none

/-- The other tasks do not set the pin. -/
theorem Indicates.others {t : HttpTask workers} (indicates : Indicates history indication) (made : t.makes c)
    (other : t ≠ .led) : Indicates (history ++ [⟨t, ⟨c, reply⟩⟩]) indication := by
  have untaken : c ≠ ledCountersTake := by
    rintro rfl
    cases t with
    | led => exact other rfl
    | _ => cases made
  constructor
  · rw [ledSession_snoc, ← indicates.same]
    cases c with
    | ledCountersTake => exact absurd rfl untaken
    | gpioSetLevel | abort =>
        cases t with
        | led => exact absurd rfl other
        | _ => cases made
    | _ => rfl
  · exact indicates.alive
  · rw [lastClientCount_snoc untaken]
    exact indicates.idle

end Steps

theorem indicates_of_exec {history s} (run : (httpSystem workers).Exec history s) :
    ∃ ghosts : (t : HttpTask workers) → IndicationGhost t, Indicates history (ghosts .led) ∧
      ∀ t, (indicationOutline workers).Keeps t (s.task t) (ghosts t) := by
  have heads (t : HttpTask workers) : (indicationOutline workers).head t t.start (IndicationGhost.initial t) := by
    cases t with
    | led => exact ⟨rfl, rfl, fun _ => rfl⟩
    | _ => rfl
  refine Tasks.invariant_of_outline (I := fun history _ ghosts => Indicates history (ghosts .led))
    (fun t round ghost head => indication_keeps head) heads ⟨rfl, rfl, fun _ => rfl⟩ ?_ run
  intro history shared ghosts t round c answer reply indicates allowed replied
  cases t with
  | led =>
      rw [Function.update_self]
      exact indicates.works replied
  | httpd | dispatcher | streamWorker | writeWorker | gnss =>
      rw [Function.update_of_ne (by simp)]
      exact indicates.others allowed (by simp)

/-- The LED task waits without a notification, and no worker has still to notify it. -/
structure LedQuiescent (history : List (HttpStep workers)) (s : HttpStack workers) : Prop where
  waits : (s.task .led).program.head? = some (notifyTake .forever)
  unnotified : s.shared.notifications .led = 0
  settled : ∀ index, ¬WorkerOwes index history

/-- At rest the LED is off without clients, and shows what the packets of the present clients
    make of what these have inherited. -/
theorem level_at_rest {history s} (run : (httpSystem workers).Exec history s) (quiescent : LedQuiescent history s) :
    ledLevel history =
      if s.shared.connectedClientCount = 0 then false
      else (packetsSinceZero history).bodd ^^ (ledSession history).inherited := by
  obtain ⟨ghosts, indicates, keeps⟩ := indicates_of_exec run
  obtain ⟨shared, balanced⟩ := ledSession_of_exec run
  have rest : (ghosts .led).AtRest (ghosts .led).shown := ((keeps .led).head? quiescent.waits).2 rfl
  have level : ledLevel history = (ledSession history).indication.shown := by
    rw [ledLevel, indicates.same]
    exact rest.level indicates.alive
  obtain ⟨drained, seen⟩ : s.shared.pendingPacketToggles = 0 ∧
      lastClientCount history = s.shared.connectedClientCount := by
    rcases led_wakes_up run quiescent.waits quiescent.unnotified with seen | ⟨index, owes, -⟩
    · exact seen
    · exact absurd owes (quiescent.settled index)
  rw [level]
  split
  · rename_i none
    rw [indicates.same]
    exact indicates.idle (seen.trans none)
  · rename_i some
    rw [← shared] at some drained
    have due := balanced.due some
    rw [LedSession.due, drained] at due
    simpa [packetsSinceZero] using due

/-- Answers under which every function succeeds and the packets are those of one client that
    has sent none. -/
def HttpCall.calm : (c : HttpCall workers) → c.Reply
  | ledCountersTake => ⟨1, 0⟩
  | c => c.succeeds .feedByte

/-- `led_on` once the LED task has done what it has taken. -/
def ledSettles (s : HttpStack workers) : Bool := ((s.task .led).program.run (fun _ c => c.calm) []).2.ledOn

/-- A client that connects when there is no other finds nothing left to show: the level that
    the LED task comes to and the pending toggles make an LED that is off. -/
def InheritsNothing (s : HttpStack workers) (action : HttpTask workers × ((c : HttpCall workers) → c.Reply)) : Prop :=
  (s.task action.1).program.head? = some ledClientConnected → s.shared.connectedClientCount = 0 →
    (ledSettles s ^^ s.shared.pendingPacketToggles.toNat.bodd) = false

theorem foldl_after_shown {events : List (HttpEvent workers)} (calm : ∀ event ∈ events, event.reply = event.call.calm)
    (indication : LedIndication) : (events.foldl LedIndication.after indication).shown = indication.shown := by
  induction events generalizing indication with
  | nil => rfl
  | cons event rest ih =>
      obtain ⟨here, later⟩ := List.forall_mem_cons.mp calm
      rw [List.foldl_cons, ih later]
      obtain ⟨c, reply⟩ := event
      by_cases taken : c = ledCountersTake
      · subst taken
        obtain rfl : reply = ⟨1, 0⟩ := here
        simp
      · exact after_shown taken

/-- The LED task settles at what the counters taken so far ask for. -/
theorem ledSettles_eq {history s} (run : (httpSystem workers).Exec history s) :
    ledSettles s = (ledSession history).indication.shown := by
  obtain ⟨ghosts, indicates, keeps⟩ := indicates_of_exec run
  have settled : (s.task .led).program.Meets indicationMonitor
      (fun indication round => HttpTask.runs (.led : HttpTask workers) round ∧ indication.AtRest round.ledOn)
      (([] : List (HttpEvent workers)).foldl LedIndication.after (ghosts .led)) := keeps .led
  have ends := (settled.run fun _ c => c.calm).1.2.shown
  have calm := CallTree.run_answers HttpCall.calm [] (s.task .led).program (List.forall_mem_nil _)
  rw [indicates.same]
  exact ends.symm.trans (foldl_after_shown calm (ghosts .led))

theorem inherits_nothing {history s} (run : ((httpSystem workers).guarded InheritsNothing).Exec history s) :
    (ledSession history).inherited = false := by
  refine System.Exec.invariant (I := fun history _ => (ledSession history).inherited = false) (fun _ _ => rfl) ?_ run
  intro history s action s' events run nothing step
  obtain ⟨finds, step⟩ := step
  cases Tasks.Transition.of_next _ step with
  | restart => simpa using nothing
  | @perform c later answer reply about replied =>
      rw [ledSession_snoc]
      by_cases first : c = ledClientConnected ∧ (ledSession history).shared.connectedClientCount = 0
      · obtain ⟨shared, -⟩ := ledSession_of_exec run.of_guarded
        have due : ((ledSession history).after ⟨action.1, ⟨c, reply⟩⟩).inherited = (ledSession history).due := if_pos first
        rw [due, LedSession.due, ← ledSettles_eq run.of_guarded, shared]
        apply finds
        · rw [about]
          exact congrArg some first.1
        · rw [← shared]
          exact first.2
      · exact (if_neg first).trans nothing

/-- Where every client that connects when there is no other inherits nothing, the LED at rest is
    off without clients, and shows the parity of the packets since there were none. -/
theorem led_indicates {history s} (run : ((httpSystem workers).guarded InheritsNothing).Exec history s)
    (quiescent : LedQuiescent history s) :
    ledLevel history = if s.shared.connectedClientCount = 0 then false else (packetsSinceZero history).bodd := by
  rw [level_at_rest run.of_guarded quiescent, inherits_nothing run, Bool.xor_false]

/-! Two runs in which the LED task starts to blink when the first client has been sent a
packet. In the second one that client has gone by then, and another has come. -/

section Runs

instance decidableWorkerOwes (index : Fin workers) (history : List (HttpStep workers)) :
    Decidable (WorkerOwes index history) := decidableSince history

instance decidableInheritsNothing (s : HttpStack workers)
    (action : HttpTask workers × ((c : HttpCall workers) → c.Reply)) : Decidable (InheritsNothing s action) :=
  inferInstanceAs (Decidable (_ → _ → _))

/-- Answers to a worker whose client has gone. -/
def HttpCall.gone : (c : HttpCall workers) → c.Reply
  | recvPeek _ => ⟨0, 0⟩
  | c => c.succeeds .feedByte

abbrev HttpActions := List (HttpTask 1 × ((c : HttpCall 1) → c.Reply))

/-- The worker sends a packet to its client. -/
def packetSchedule : HttpActions := deliverySchedule.map fun (t, action) => (t, HttpCall.succeeds action)

/-- The LED task blinks, takes the counters and waits for more. -/
def blinkSchedule : HttpActions := List.replicate 30 (.led, HttpCall.succeeds .feedByte)

/-- The worker's client goes and another one comes. -/
def reconnectSchedule : HttpActions :=
  let worker : HttpTask 1 := .streamWorker ⟨0, Nat.one_pos⟩
  List.replicate 9 (worker, HttpCall.gone) ++ List.replicate 5 (.httpd, HttpCall.gone) ++
    List.replicate 4 (worker, HttpCall.gone)

def packetRun : Option (HttpStack 1 × List (HttpStep 1)) :=
  System.replay (fun s action => if InheritsNothing s action then (httpTasks 1).next s action else none)
    ((httpTasks 1).initial .initial HttpTask.start) (packetSchedule ++ blinkSchedule)

theorem packetRun_isSome : packetRun.isSome = true := by decide +kernel

theorem packetRun_exec :
    ((httpSystem 1).guarded InheritsNothing).Exec (packetRun.get packetRun_isSome).2
      (packetRun.get packetRun_isSome).1 :=
  System.Exec.guarded_of_replay_isSome packetRun_isSome

/-- One packet turns the LED on. -/
theorem packet_shown : ledLevel (packetRun.get packetRun_isSome).2 = true := by
  have quiescent : LedQuiescent (packetRun.get packetRun_isSome).2 (packetRun.get packetRun_isSome).1 :=
    ⟨by decide +kernel, by decide +kernel, by decide +kernel⟩
  have connected : ¬(packetRun.get packetRun_isSome).1.shared.connectedClientCount = 0 := by decide +kernel
  have one : packetsSinceZero (packetRun.get packetRun_isSome).2 = 1 := by decide +kernel
  rw [led_indicates packetRun_exec quiescent, if_neg connected, one]
  rfl

def reconnectRun : Option (HttpStack 1 × List (HttpStep 1)) :=
  System.replay (httpTasks 1).next ((httpTasks 1).initial .initial HttpTask.start)
    (packetSchedule ++ reconnectSchedule ++ blinkSchedule)

theorem reconnectRun_isSome : reconnectRun.isSome = true := by decide +kernel

theorem reconnectRun_exec :
    (httpSystem 1).Exec (reconnectRun.get reconnectRun_isSome).2 (reconnectRun.get reconnectRun_isSome).1 :=
  System.Exec.of_replay_isSome reconnectRun_isSome

/-- The packet of a client that has gone leaves the LED on for the next one. -/
theorem packet_inherited : ∃ history s, (httpSystem 1).Exec history s ∧ LedQuiescent history s ∧
    s.shared.connectedClientCount ≠ 0 ∧ packetsSinceZero history = 0 ∧
      ledLevel history ≠ (packetsSinceZero history).bodd :=
  ⟨_, _, reconnectRun_exec, ⟨by decide +kernel, by decide +kernel, by decide +kernel⟩, by decide +kernel,
    by decide +kernel, by decide +kernel⟩

end Runs

end EspGnss.Http
