import EspGnss.Foundation.Mailbox
import EspGnss.Wifi.Stack
import Mathlib.Data.List.Basic

/-! # The log of station events

The lines that `wifi_stack_task` logs are the station events in the order in which the
event loop received them. An event is lost only when eight others wait, and each line
says which event it stands for.
-/

namespace EspGnss.Wifi

open Foundation WifiCall

/-- The station event that an event of the driver stands for. -/
def WifiEvent.stationEvent : WifiEvent → Option WifiStationEvent
  | apStaConnected mac aid => some ⟨.connected, mac, aid, 0⟩
  | apStaDisconnected mac aid reason => some ⟨.disconnected, mac, aid, reason⟩
  | other _ => none

theorem decimalText_injective : Function.Injective decimalText := by
  intro n n' same
  have parsed := congrArg (Nat.ofDigitChars 10 · 0) same
  simpa only [decimalText, Nat.ofDigitChars_ten_toDigits] using parsed

theorem comma_not_mem_decimalText (n : Nat) : ',' ∉ decimalText n := by
  intro member
  have digit := Nat.isDigit_of_mem_toDigits (by decide) (by decide) member
  simp at digit

theorem digitChar_injOn {n n' : Nat} (small : n < 16) (small' : n' < 16)
    (same : Nat.digitChar n = Nat.digitChar n') : n = n' := by
  have table : ∀ n : Fin 16, ∀ n' : Fin 16, Nat.digitChar n = Nat.digitChar n' → n = n' := by decide +kernel
  exact Fin.val_eq_of_eq (table ⟨n, small⟩ ⟨n', small'⟩ same)

theorem hexByte_injective : Function.Injective hexByte := by
  intro byte byte' same
  obtain ⟨high, low⟩ : Nat.digitChar (byte.toNat / 16) = Nat.digitChar (byte'.toNat / 16) ∧
      Nat.digitChar (byte.toNat % 16) = Nat.digitChar (byte'.toNat % 16) := by
    simpa [hexByte] using same
  have bound := byte.toNat_lt
  have bound' := byte'.toNat_lt
  have highs := digitChar_injOn (by omega) (by omega) high
  have lows := digitChar_injOn (by omega) (by omega) low
  apply UInt8.toNat_inj.mp
  omega

/-- Two MAC addresses are written in as many characters. -/
theorem macText_inj {mac mac' : Mac} {rest rest' : List Char}
    (same : macText mac ++ rest = macText mac' ++ rest') : mac = mac' ∧ rest = rest' := by
  have bytes (index : Nat) (inside : index < 6) (here : hexByte mac[index] = hexByte mac'[index]) :
      mac[index] = mac'[index] := hexByte_injective here
  have length (mac : Mac) : (macText mac).length = 17 := by simp [macText, hexByte]
  obtain ⟨texts, rests⟩ := List.append_inj same ((length mac).trans (length mac').symm)
  have digits : hexByte mac[0] = hexByte mac'[0] ∧ hexByte mac[1] = hexByte mac'[1] ∧
      hexByte mac[2] = hexByte mac'[2] ∧ hexByte mac[3] = hexByte mac'[3] ∧
      hexByte mac[4] = hexByte mac'[4] ∧ hexByte mac[5] = hexByte mac'[5] := by
    simp only [macText, hexByte, List.cons_append, List.nil_append, List.cons.injEq] at texts ⊢
    simp [texts]
  obtain ⟨b0, b1, b2, b3, b4, b5⟩ := digits
  constructor
  · apply Vector.ext
    intro index inside
    obtain rfl | rfl | rfl | rfl | rfl | rfl : index = 0 ∨ index = 1 ∨ index = 2 ∨ index = 3 ∨ index = 4 ∨ index = 5 := by
      omega
    · exact bytes 0 inside b0
    · exact bytes 1 inside b1
    · exact bytes 2 inside b2
    · exact bytes 3 inside b3
    · exact bytes 4 inside b4
    · exact bytes 5 inside b5
  · exact rests

theorem text_connected (mac : Mac) (aid : UInt8) (reason : UInt16) :
    WifiStationEvent.text ⟨.connected, mac, aid, reason⟩ =
      "station ".toList ++ (macText mac ++ (" joined, AID=".toList ++ decimalText aid.toNat)) := by
  simp [WifiStationEvent.text]

theorem text_disconnected (mac : Mac) (aid : UInt8) (reason : UInt16) :
    WifiStationEvent.text ⟨.disconnected, mac, aid, reason⟩ =
      "station ".toList ++ (macText mac ++ (" left, AID=".toList ++
        (decimalText aid.toNat ++ ',' :: (" reason=".toList ++ decimalText reason.toNat)))) := by
  simp [WifiStationEvent.text]

/-- A line of the log tells which event it stands for. -/
theorem text_inj {event event' : WifiEvent} {stationEvent stationEvent' : WifiStationEvent}
    (stands : event.stationEvent = some stationEvent) (stands' : event'.stationEvent = some stationEvent')
    (same : stationEvent.text = stationEvent'.text) : event = event' := by
  cases event with
  | other => cases stands
  | apStaConnected mac aid =>
      cases stands
      cases event' with
      | other => cases stands'
      | apStaConnected mac' aid' =>
          cases stands'
          rw [text_connected, text_connected] at same
          obtain ⟨rfl, numbers⟩ := macText_inj (List.append_cancel_left same)
          have aids := decimalText_injective (List.append_cancel_left numbers)
          rw [UInt8.toNat_inj.mp aids]
      | apStaDisconnected mac' aid' reason' =>
          cases stands'
          rw [text_connected, text_disconnected] at same
          obtain ⟨-, words⟩ := macText_inj (List.append_cancel_left same)
          simp at words
  | apStaDisconnected mac aid reason =>
      cases stands
      cases event' with
      | other => cases stands'
      | apStaConnected mac' aid' =>
          cases stands'
          rw [text_connected, text_disconnected] at same
          obtain ⟨-, words⟩ := macText_inj (List.append_cancel_left same)
          simp at words
      | apStaDisconnected mac' aid' reason' =>
          cases stands'
          rw [text_disconnected, text_disconnected] at same
          obtain ⟨rfl, numbers⟩ := macText_inj (List.append_cancel_left same)
          have apart : ',' ∉ " reason=".toList ++ decimalText reason'.toNat := by
            simp [comma_not_mem_decimalText]
          obtain ⟨aids, -, reasons⟩ :=
            (List.append_cons_inj_of_notMem (comma_not_mem_decimalText _) apart).mp
              (List.append_cancel_left numbers).symm
          have aid_same := decimalText_injective aids
          have reason_same := decimalText_injective (List.append_cancel_left reasons)
          rw [UInt8.toNat_inj.mp aid_same, UInt16.toNat_inj.mp reason_same]

/-- What a call is for the queue. -/
def queueView : CallEvent WifiCall.Reply → Option (MailEvent WifiStationEvent)
  | ⟨queueSend stationEvent, sent⟩ => some (.sent stationEvent sent)
  | ⟨queueReceive, received⟩ => received.map .received
  | _ => none

/-- `s_wifi_event_queue` among the two tasks. -/
def wifiEventQueue : Mailbox wifiTasks WifiStationEvent wifiEventQueueLength where
  queue := WifiShared.eventQueue
  view := queueView
  moves t shared answer c reply replied := by
    cases c with
    | queueSend stationEvent =>
        obtain rfl := Option.some.inj replied
        cases sent : shared.eventQueue.send stationEvent with
        | none =>
            have full : decide (shared.eventQueue.items.length < wifiEventQueueLength) = false := by
              rw [BoundedQueue.send_eq_none sent]
              rfl
            simp only [full, wifiTasks, WifiShared.observe, sent, Option.getD_none]
            exact .refuse sent
        | some after =>
            have room : decide (shared.eventQueue.items.length < wifiEventQueueLength) = true :=
              decide_eq_true (BoundedQueue.send_eq_some sent).1
            simp only [room, wifiTasks, WifiShared.observe, sent, Option.getD_some]
            exact .accept sent
    | queueReceive =>
        obtain ⟨⟨stationEvent, after⟩, received, rfl⟩ := Option.map_eq_some_iff.mp replied
        simp only [wifiTasks, WifiShared.observe, received, Option.map_some, Option.getD_some]
        exact .receive received
    | _ => exact .other

@[simp] theorem wifiEventQueue_view : wifiEventQueue.view = queueView := rfl

/-- The events that the event loop has received, as station events. -/
def handled (history : List WifiStep) : List WifiStationEvent :=
  history.flatMap fun step =>
    match step.event with
    | ⟨eventReceive, event⟩ => event.stationEvent.toList
    | _ => []

/-- The lines that `wifi_stack_task` has logged. -/
def logged (history : List WifiStep) : List (List Char) :=
  history.flatMap fun step =>
    match step.event with
    | ⟨espLogi text, _⟩ => [text]
    | _ => []

/-- Watches the station event that a task has and has not passed on. -/
@[simps] def WifiTask.monitor (t : WifiTask) : Monitor WifiCall.Reply (Option WifiStationEvent) where
  allows held c :=
    match t, c with
    | eventLoop, eventReceive | wifiStack, queueReceive => held = none
    | eventLoop, queueSend stationEvent => held = some stationEvent
    | eventLoop, espLogw _ => held = none
    | wifiStack, espLogi text => held.map WifiStationEvent.text = some text
    | _, _ => False
  observe held
    | ⟨eventReceive, event⟩ => event.stationEvent
    | ⟨queueReceive, received⟩ => received
    | ⟨queueSend _, _⟩ | ⟨espLogi _, _⟩ => none
    | ⟨espLogw _, _⟩ => held

theorem stationEventSend_passes (stationEvent : WifiStationEvent) :
    (stationEventSend stationEvent).Meets (WifiTask.monitor .eventLoop) (fun held _ => held = none)
      (some stationEvent) := by
  simp only [stationEventSend, CallTree.meets_bind, CallTree.meets_perform]
  constructor
  · rfl
  · intro sent
    cases sent with
    | false => exact ⟨rfl, fun _ => rfl⟩
    | true => rfl

theorem eventLoopRound_passes :
    eventLoopRound.Meets (WifiTask.monitor .eventLoop) (fun held round => round = .dispatching ∧ held = none) none := by
  simp only [eventLoopRound, CallTree.meets_bind, CallTree.meets_perform]
  constructor
  · rfl
  · intro event
    cases event with
    | other => exact ⟨rfl, rfl⟩
    | _ =>
        apply (stationEventSend_passes _).mono
        intro held _ nothing
        exact ⟨rfl, nothing⟩

theorem wifiStackRound_passes :
    wifiStackRound.Meets (WifiTask.monitor .wifiStack) (fun held round => round = .logging ∧ held = none) none := by
  simp only [wifiStackRound, CallTree.meets_bind, CallTree.meets_perform]
  constructor
  · rfl
  · intro received
    cases received with
    | none => exact ⟨rfl, rfl⟩
    | some stationEvent => exact ⟨rfl, fun _ => ⟨rfl, rfl⟩⟩

def wifiOutline : Outline WifiTask WifiCall.Reply WifiRound fun _ => Option WifiStationEvent where
  observe t := t.monitor.observe
  allows t _ := t.monitor.allows
  head t round held := round = t.round ∧ held = none

/-- What the tasks have passed on and what they hold are all there has been. -/
structure PassedOn (history : List WifiStep) (held : WifiTask → Option WifiStationEvent) : Prop where
  sends : handled history = (wifiEventQueue.sends history).map (·.1) ++ (held .eventLoop).toList
  logs : (wifiEventQueue.received history).map WifiStationEvent.text =
    logged history ++ (held .wifiStack).toList.map WifiStationEvent.text

theorem PassedOn.step {history : List WifiStep} {held : WifiTask → Option WifiStationEvent}
    (passed : PassedOn history held) {t : WifiTask} {c : WifiCall} {reply : c.Reply}
    (allowed : t.monitor.allows (held t) c) :
    PassedOn (history ++ [⟨t, ⟨c, reply⟩⟩]) (Function.update held t (t.monitor.observe (held t) ⟨c, reply⟩)) := by
  obtain ⟨handledAll, loggedAll⟩ := passed
  constructor
  · rw [handled, List.flatMap_append, wifiEventQueue.sends_snoc, List.map_append]
    change handled history ++ _ = _
    rw [handledAll]
    cases t with
    | eventLoop =>
        cases c with
        | eventReceive =>
            have nothing : held .eventLoop = none := allowed
            simp [nothing, queueView]
        | queueSend stationEvent =>
            have has : held .eventLoop = some stationEvent := allowed
            simp [has, queueView, MailEvent.send?]
        | espLogw => simp [queueView]
        | _ => exact allowed.elim
    | wifiStack =>
        cases c with
        | queueReceive => cases reply <;> simp [queueView, MailEvent.send?]
        | espLogi => simp [queueView]
        | _ => exact allowed.elim
  · rw [logged, List.flatMap_append, wifiEventQueue.received_snoc, List.map_append, loggedAll]
    change _ = logged history ++ _ ++ _
    cases t with
    | eventLoop =>
        cases c with
        | eventReceive | queueSend | espLogw => simp [queueView, MailEvent.received?]
        | _ => exact allowed.elim
    | wifiStack =>
        cases c with
        | queueReceive =>
            have nothing : held .wifiStack = none := allowed
            cases reply <;> simp [nothing, queueView, MailEvent.received?]
        | espLogi text =>
            obtain ⟨stationEvent, has, rfl⟩ := Option.map_eq_some_iff.mp allowed
            simp [has, queueView]
        | _ => exact allowed.elim

theorem passedOn_of_exec {history s} (run : wifiSystem.Exec history s) : ∃ held, PassedOn history held := by
  have bodies (t round held) (head : wifiOutline.head t round held) :
      wifiOutline.Keeps t (wifiTasks.begin t round) held := by
    obtain ⟨rfl, rfl⟩ := head
    cases t with
    | eventLoop => exact eventLoopRound_passes
    | wifiStack => exact wifiStackRound_passes
  obtain ⟨held, passed, -⟩ := Tasks.invariant_of_outline (I := fun history _ held => PassedOn history held)
    bodies (fun _ => ⟨rfl, rfl⟩) ⟨rfl, rfl⟩
    (fun _ _ _ _ _ _ _ _ passed allowed _ => passed.step allowed) run
  exact ⟨held, passed⟩

theorem stands_of_handled {history : List WifiStep} {stationEvent : WifiStationEvent}
    (member : stationEvent ∈ handled history) : ∃ event : WifiEvent, event.stationEvent = some stationEvent := by
  obtain ⟨step, -, here⟩ := List.mem_flatMap.mp member
  split at here
  · rename_i event _
    exact ⟨event, Option.mem_toList.mp here⟩
  · cases here

/-- What the log shows of the station events of a run. -/
structure StationLog (history : List WifiStep) (s : WifiStack) : Prop where
  /-- Each station event has been sent once, in order; the last one may be still to send. -/
  sent : ∃ unsent : Option WifiStationEvent,
    handled history = (wifiEventQueue.sends history).map (·.1) ++ unsent.toList
  /-- What the queue has accepted has been logged once, in order, but for the event that the
      task holds and those that wait. -/
  noted : ∃ unlogged : Option WifiStationEvent,
    (wifiEventQueue.accepted history).map WifiStationEvent.text =
      logged history ++ (unlogged.toList ++ s.shared.eventQueue.items).map WifiStationEvent.text
  /-- An event is refused exactly when eight accepted ones wait. -/
  refused : ∀ before step after stationEvent ok, history = before ++ step :: after →
    queueView step.event = some (.sent stationEvent ok) →
      (ok = false ↔ (wifiEventQueue.accepted before).length =
        (wifiEventQueue.received before).length + wifiEventQueueLength)
  /-- Different events have different lines. -/
  told : ∀ first ∈ handled history, ∀ second ∈ handled history, first.text = second.text → first = second

theorem station_events_logged {history s} (run : wifiSystem.Exec history s) : StationLog history s := by
  obtain ⟨held, passed⟩ := passedOn_of_exec run
  have accepted := wifiEventQueue.accepted_of_exec rfl run
  constructor
  · exact ⟨held .eventLoop, passed.sends⟩
  · exists held .wifiStack
    rw [accepted, List.map_append, passed.logs, List.append_assoc, List.map_append]
    rfl
  · intro before step after stationEvent ok split sent
    exact wifiEventQueue.refused_iff_of_exec rfl run split sent
  · intro first here second there same
    obtain ⟨event, stands⟩ := stands_of_handled here
    obtain ⟨event', stands'⟩ := stands_of_handled there
    obtain rfl := text_inj stands stands' same
    exact Option.some.inj (stands.symm.trans stands')

/-! A station joins while the task logs, and then it leaves. -/

/-- Answers under which a station joins. -/
def WifiCall.joins : (c : WifiCall) → c.Reply
  | eventReceive => .apStaConnected (.replicate 6 0xab) 1
  | queueSend _ => true
  | queueReceive => none
  | espLogi _ | espLogw _ => ()

def WifiCall.leaves : (c : WifiCall) → c.Reply
  | eventReceive => .apStaDisconnected (.replicate 6 0xab) 1 8
  | c => c.joins

def joinedRun : Option (WifiStack × List WifiStep) :=
  System.replay wifiTasks.next (wifiTasks.initial .initial WifiTask.round)
    (([.eventLoop, .eventLoop, .wifiStack, .eventLoop].map fun t => (t, WifiCall.joins)) ++
      [.eventLoop, .wifiStack, .eventLoop].map fun t => (t, WifiCall.leaves))

theorem joinedRun_isSome : joinedRun.isSome = true := by decide +kernel

theorem joined_station_logged :
    StationLog (joinedRun.get joinedRun_isSome).2 (joinedRun.get joinedRun_isSome).1 ∧
      logged (joinedRun.get joinedRun_isSome).2 = ["station ab:ab:ab:ab:ab:ab joined, AID=1".toList] :=
  ⟨station_events_logged (System.Exec.of_replay_isSome joinedRun_isSome), by decide +kernel⟩

end EspGnss.Wifi
