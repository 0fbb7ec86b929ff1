import EspGnss.EspErr
import EspGnss.Foundation.Tasks
import EspGnss.Foundation.QueueSet
import Mathlib.Data.Vector.Defs

/-! # `wifi_ap.c`: station events

The event loop runs `wifi_event_handler`, which copies a station event into a queue
without waiting; `wifi_stack_task` logs what it receives. Each queue operation and each
line of log output is one call. The log output of the other modules is left out; this
one is the purpose of the task.
-/

namespace EspGnss.Wifi

open Foundation

/-- `WIFI_EVENT_QUEUE_LENGTH` -/
abbrev wifiEventQueueLength : Nat := 8

abbrev Mac := Vector UInt8 6

/-- `wifi_station_event_type_t` -/
inductive WifiStationEventType where
  | connected
  | disconnected
  deriving DecidableEq, Repr

/-- `wifi_station_event_t` -/
structure WifiStationEvent where
  type : WifiStationEventType
  mac : Mac
  aid : UInt8
  reason : UInt16
  deriving DecidableEq, Repr

/-- An event of the base `WIFI_EVENT`: its id and what the handler reads of its data. -/
inductive WifiEvent where
  | apStaConnected (mac : Mac) (aid : UInt8)
  | apStaDisconnected (mac : Mac) (aid : UInt8) (reason : UInt16)
  | other (eventId : Int)
  deriving DecidableEq, Repr

inductive WifiCall where
  -- the event loop has an event for the handler
  | eventReceive
  | queueSend (stationEvent : WifiStationEvent)
  | queueReceive
  | espLogi (text : List Char)
  | espLogw (text : List Char)
  deriving DecidableEq

abbrev WifiCall.Reply : WifiCall → Type
  | eventReceive => WifiEvent
  | queueSend _ => Bool
  | queueReceive => Option WifiStationEvent
  | espLogi _ | espLogw _ => Unit

abbrev WifiProgram := CallTree WifiCall WifiCall.Reply

abbrev call (c : WifiCall) : WifiProgram c.Reply := CallTree.perform c

open WifiCall

/-- `%02x` -/
def hexByte (byte : UInt8) : List Char :=
  [Nat.digitChar (byte.toNat / 16), Nat.digitChar (byte.toNat % 16)]

/-- `MACSTR` with `MAC2STR(mac)` -/
def macText (mac : Mac) : List Char :=
  hexByte mac[0] ++ ':' :: hexByte mac[1] ++ ':' :: hexByte mac[2] ++ ':' :: hexByte mac[3] ++
    ':' :: hexByte mac[4] ++ ':' :: hexByte mac[5]

/-- `%d` -/
def decimalText (n : Nat) : List Char := Nat.toDigits 10 n

/-- What `wifi_stack_task` logs of a station event. -/
def WifiStationEvent.text (stationEvent : WifiStationEvent) : List Char :=
  if stationEvent.type = .connected then
    "station ".toList ++ macText stationEvent.mac ++ " joined, AID=".toList ++ decimalText stationEvent.aid.toNat
  else
    "station ".toList ++ macText stationEvent.mac ++ " left, AID=".toList ++ decimalText stationEvent.aid.toNat ++
      ", reason=".toList ++ decimalText stationEvent.reason.toNat

/-- The end of `wifi_event_handler`. -/
def stationEventSend (stationEvent : WifiStationEvent) : WifiProgram Unit := do
  let sent ← call (queueSend stationEvent)
  if !sent then call (espLogw "station event queue is full".toList)

def wifiEventHandler : WifiEvent → WifiProgram Unit
  | .apStaConnected mac aid => stationEventSend ⟨.connected, mac, aid, 0⟩
  | .apStaDisconnected mac aid reason => stationEventSend ⟨.disconnected, mac, aid, reason⟩
  | .other _ => return ()

/-- Where a task starts its next round. -/
inductive WifiRound where
  /-- The event loop waits for an event. -/
  | dispatching
  /-- The loop of `wifi_stack_task`. -/
  | logging
  deriving DecidableEq, Repr

def eventLoopRound : WifiProgram WifiRound := do
  let event ← call eventReceive
  wifiEventHandler event
  return .dispatching

/-- One pass through the loop of `wifi_stack_task`. -/
def wifiStackRound : WifiProgram WifiRound := do
  let received ← call queueReceive
  match received with
  | none => return .logging
  | some stationEvent =>
      let _ ← call (espLogi stationEvent.text)
      return .logging

inductive WifiTask where
  | eventLoop
  | wifiStack
  deriving DecidableEq, Repr

/-- `s_wifi_event_queue` -/
structure WifiShared where
  eventQueue : BoundedQueue WifiStationEvent wifiEventQueueLength

namespace WifiShared

def initial : WifiShared := ⟨.empty⟩

/-- The reply to a call; `answer` decides which events there are. -/
def reply (shared : WifiShared) (answer : (c : WifiCall) → c.Reply) : (c : WifiCall) → Option c.Reply
  | queueSend _ => some (decide (shared.eventQueue.items.length < wifiEventQueueLength))
  | queueReceive => shared.eventQueue.receive.map fun received => some received.1
  | c => some (answer c)

/-- What a call does to the queue, given its reply. -/
def observe (shared : WifiShared) : CallEvent WifiCall.Reply → WifiShared
  | ⟨queueSend stationEvent, _⟩ => ⟨(shared.eventQueue.send stationEvent).getD shared.eventQueue⟩
  | ⟨queueReceive, _⟩ => ⟨(shared.eventQueue.receive.map (·.2)).getD shared.eventQueue⟩
  | _ => shared

end WifiShared

def WifiRound.program : WifiRound → WifiProgram WifiRound
  | dispatching => eventLoopRound
  | logging => wifiStackRound

/-- The rounds of a task. -/
def WifiTask.round : WifiTask → WifiRound
  | eventLoop => .dispatching
  | wifiStack => .logging

def wifiTasks : Tasks WifiTask WifiCall WifiCall.Reply WifiRound WifiShared where
  body _ round := round.program
  reply _ := WifiShared.reply
  observe _ := WifiShared.observe

abbrev WifiStack := TasksState WifiTask WifiCall WifiCall.Reply WifiRound WifiShared

abbrev WifiStep := TaskStep WifiTask WifiCall.Reply

/-- The two tasks under every interleaving. -/
def wifiSystem : System WifiStack (WifiTask × ((c : WifiCall) → c.Reply)) WifiStep :=
  wifiTasks.system .initial WifiTask.round

end EspGnss.Wifi
