import EspGnss.Foundation.Sessions
import EspGnss.Http.Indication

/-! # The counters of the LED

The number of connected clients is the number of stream workers that serve one, and each
packet that has been sent counts for one toggle, as far as the counter reaches.
-/

namespace EspGnss.Http

open Foundation HttpCall

variable {workers : Nat}

/-- A worker opens a session for its client. -/
def clientSession : HttpStep workers → Option (Fin workers × SessionEvent)
  | ⟨.streamWorker index, ⟨ledClientConnected, _⟩⟩ => some (index, .opened)
  | ⟨.streamWorker index, ⟨ledClientDisconnected, _⟩⟩ => some (index, .closed)
  | _ => none

/-- From the packet being sent until it is counted. -/
def packetSession : HttpStep workers → Option (Fin workers × SessionEvent)
  | ⟨.streamWorker index, ⟨respSendChunk _ _ _, err⟩⟩ => if err = espOk then some (index, .opened) else none
  | ⟨.streamWorker index, ⟨ledPacketConsumed, _⟩⟩ => some (index, .closed)
  | _ => none

/-- The packets counted since the LED task took the counters. -/
def packetsPending (history : List (HttpStep workers)) : Nat :=
  history.foldl (fun pending step =>
    match step.event.call with
    | ledPacketConsumed => pending + 1
    | ledCountersTake => 0
    | _ => pending) 0

/-- Whether a stream worker makes the call inside or outside a session. -/
def HttpCall.inSession : HttpCall workers → Option Bool
  | latestCopyIfNew _ | respSendChunk _ _ _ | recvPeek _ | ledPacketConsumed => some true
  | workerReadyGive _ | requestQueueReceive _ | asyncHandlerComplete _ => some false
  | _ => none

/-- What a worker has announced. -/
structure ClientGhost where
  connected : Bool
  /-- A packet has been sent and not counted yet. -/
  uncounted : Bool
  deriving DecidableEq

namespace ClientGhost

def idle : ClientGhost := ⟨false, false⟩
def serving : ClientGhost := ⟨true, false⟩

def Permits (ghost : ClientGhost) : HttpCall workers → Prop
  | ledClientConnected | workerReadyGive _ | requestQueueReceive _ | asyncHandlerComplete _ => ghost = idle
  | ledClientDisconnected | respSendChunk _ _ _ | latestCopyIfNew _ | recvPeek _ => ghost = serving
  | ledPacketConsumed => ghost = ⟨true, true⟩
  | _ => True

def after (ghost : ClientGhost) : HttpEvent workers → ClientGhost
  | ⟨ledClientConnected, _⟩ => { ghost with connected := true }
  | ⟨ledClientDisconnected, _⟩ => { ghost with connected := false }
  | ⟨respSendChunk _ _ _, err⟩ => { ghost with uncounted := decide (err = espOk) }
  | ⟨ledPacketConsumed, _⟩ => { ghost with uncounted := false }
  | _ => ghost

end ClientGhost

def HttpRound.clientGhost : HttpRound → ClientGhost
  | streaming _ _ => .serving
  | _ => .idle

@[simps] def clientOutline (workers : Nat) :
    Outline (HttpTask workers) (@HttpCall.Reply workers) HttpRound fun _ => ClientGhost where
  observe _ := ClientGhost.after
  allows t _ ghost c := t.makes c ∧ ghost.Permits c
  head t round ghost := t.runs round ∧ ghost = round.clientGhost

theorem streamReadyRound_announces (index : Fin workers) :
    streamReadyRound.Meets ((clientOutline workers).monitor (.streamWorker index) .streamReady)
      (fun ghost round => HttpTask.runs (.streamWorker index) round ∧ ghost = round.clientGhost) .idle := by
  simp [streamReadyRound, ClientGhost.Permits, ClientGhost.after, ClientGhost.idle]
  intro received
  cases received <;>
    simp [genericLedClientConnected, genericLedWakeTask, HttpTask.runs, HttpRound.clientGhost, ClientGhost.Permits,
      ClientGhost.after, ClientGhost.idle, ClientGhost.serving]

theorem streamingRound_announces (index : Fin workers) (asyncReq : HttpAsyncRequest) (lastSequence : UInt32) :
    (streamingRound asyncReq lastSequence).Meets
      ((clientOutline workers).monitor (.streamWorker index) (.streaming asyncReq lastSequence))
      (fun ghost round => HttpTask.runs (.streamWorker index) round ∧ ghost = round.clientGhost) .serving := by
  simp [streamingRound, ClientGhost.Permits, ClientGhost.after, ClientGhost.serving]
  intro copied
  cases copied <;>
    simp +contextual [streamClientIsConnected, streamFinish, genericLedPacketConsumed, genericLedClientDisconnected,
      genericLedWakeTask, HttpTask.runs, HttpRound.clientGhost, ClientGhost.Permits, ClientGhost.after, ClientGhost.idle,
      ClientGhost.serving]

theorem clientGhost_other {t : HttpTask workers} {round : HttpRound} (runs : t.runs round = true)
    (other : ∀ index, t ≠ .streamWorker index) : round.clientGhost = .idle := by
  cases round with
  | streaming =>
      cases t with
      | streamWorker index => exact absurd rfl (other index)
      | _ => cases runs
  | _ => rfl

/-- The other tasks announce nothing. -/
theorem other_announces {t : HttpTask workers} {round : HttpRound} (runs : t.runs round = true)
    (other : ∀ index, t ≠ .streamWorker index) :
    (clientOutline workers).Keeps t ((httpTasks workers).begin t round) .idle := by
  refine (CallTree.Meets.of_calls (I := (· = ClientGhost.idle)) ?_ (program_makes runs) rfl).mono ?_
  · intro ghost c idle makes
    subst idle
    cases t with
    | streamWorker index => exact absurd rfl (other index)
    | _ => cases c <;> simp_all [ClientGhost.Permits, ClientGhost.after]
  · intro ghost next ends
    exact ⟨ends.2, ends.1.trans (clientGhost_other ends.2 other).symm⟩

theorem client_keeps {t : HttpTask workers} {round : HttpRound} {ghost : ClientGhost}
    (head : (clientOutline workers).head t round ghost) :
    (clientOutline workers).Keeps t ((httpTasks workers).begin t round) ghost := by
  obtain ⟨runs, rfl⟩ := head
  cases t with
  | streamWorker index =>
      cases round with
      | streamReady => exact streamReadyRound_announces index
      | streaming asyncReq lastSequence => exact streamingRound_announces index asyncReq lastSequence
      | _ => cases runs
  | _ =>
      rw [clientGhost_other runs nofun]
      exact other_announces runs nofun

/-- What the workers have announced agrees with the history and the counters. -/
structure Announced (history : List (HttpStep workers)) (shared : HttpShared workers)
    (ghosts : HttpTask workers → ClientGhost) : Prop where
  sessions : SessionAccount clientSession (fun index => (ghosts (.streamWorker index)).connected) history
  packets : SessionAccount packetSession (fun index => (ghosts (.streamWorker index)).uncounted) history
  clients : shared.connectedClientCount.toNat = (openSessions clientSession history).card
  toggles : shared.pendingPacketToggles.toNat = min (packetsPending history) 0xFFFFFFFF

section Step

variable {history : List (HttpStep workers)} {shared : HttpShared workers} {ghosts : HttpTask workers → ClientGhost}
  {t : HttpTask workers} {c : HttpCall workers} {reply : c.Reply} {index : Fin workers}

theorem packetsPending_snoc (history : List (HttpStep workers)) (step : HttpStep workers) :
    packetsPending (history ++ [step]) =
      match step.event.call with
      | ledPacketConsumed => packetsPending history + 1
      | ledCountersTake => 0
      | _ => packetsPending history := by
  rw [packetsPending, List.foldl_concat]
  rfl

theorem flags_update (field : ClientGhost → Bool) (ghosts : HttpTask workers → ClientGhost) (index : Fin workers)
    (ghost : ClientGhost) :
    (fun other => field (Function.update ghosts (.streamWorker index) ghost (.streamWorker other))) =
      Function.update (fun other => field (ghosts (.streamWorker other))) index (field ghost) := by
  funext other
  rcases Decidable.eq_or_ne other index with rfl | apart
  · rw [Function.update_self, Function.update_self]
  · rw [Function.update_of_ne (streamWorker_injective.ne apart), Function.update_of_ne apart]

/-- Other calls change neither the counters nor what is announced. -/
theorem Announced.other (announced : Announced history shared ghosts) (quiet : updatesLed c = false)
    (other : c ≠ ledCountersTake) (noPacket : packetSession ⟨t, ⟨c, reply⟩⟩ = none)
    (same : (ghosts t).after ⟨c, reply⟩ = ghosts t) :
    Announced (history ++ [⟨t, ⟨c, reply⟩⟩]) (shared.observe t ⟨c, reply⟩)
      (Function.update ghosts t ((ghosts t).after ⟨c, reply⟩)) := by
  have noSession : clientSession ⟨t, ⟨c, reply⟩⟩ = none := by
    cases c with
    | ledClientConnected | ledClientDisconnected => cases quiet
    | _ => cases t <;> rfl
  have pending : packetsPending (history ++ [⟨t, ⟨c, reply⟩⟩]) = packetsPending history := by
    rw [packetsPending_snoc]
    cases c with
    | ledPacketConsumed => cases quiet
    | ledCountersTake => exact absurd rfl other
    | _ => rfl
  obtain ⟨count, toggles⟩ := @observe_led workers t shared ⟨c, reply⟩ quiet other
  rw [same, Function.update_eq_self]
  constructor
  · exact announced.sessions.other noSession
  · exact announced.packets.other noPacket
  · rw [count, openSessions_other noSession]
    exact announced.clients
  · rw [toggles, pending]
    exact announced.toggles

theorem Announced.connect (announced : Announced history shared ghosts) (few : workers < 2 ^ 32)
    (idle : ghosts (.streamWorker index) = .idle) :
    Announced (history ++ [⟨.streamWorker index, ⟨ledClientConnected, ()⟩⟩])
      (shared.observe (.streamWorker index) ⟨ledClientConnected, ()⟩)
      (Function.update ghosts (.streamWorker index)
        ((ghosts (.streamWorker index)).after (⟨ledClientConnected, ()⟩ : HttpEvent workers))) := by
  have seen : clientSession (⟨.streamWorker index, ⟨ledClientConnected, ()⟩⟩ : HttpStep workers) =
    some (index, .opened) := rfl
  have opened := announced.sessions.event seen (by rw [idle]; rfl)
  constructor
  · rw [flags_update ClientGhost.connected]
    exact opened
  · rw [flags_update ClientGhost.uncounted]
    have same : ((ghosts (.streamWorker index)).after (⟨ledClientConnected, ()⟩ : HttpEvent workers)).uncounted =
      (ghosts (.streamWorker index)).uncounted := rfl
    rw [same, Function.update_eq_self]
    exact announced.packets.other rfl
  · have more := card_opened (opened.proper.of_snoc).2 seen
    have bound := Finset.card_le_univ (openSessions clientSession
      (history ++ [⟨.streamWorker index, ⟨ledClientConnected, ()⟩⟩] : List (HttpStep workers)))
    have clients := announced.clients
    rw [Fintype.card_fin] at bound
    have one : (1 : UInt32).toNat = 1 := rfl
    have count : (shared.connectedClientCount + 1).toNat = shared.connectedClientCount.toNat + 1 := by
      rw [UInt32.toNat_add, one, Nat.mod_eq_of_lt (by omega)]
    rw [more, ← clients]
    exact count
  · rw [packetsPending_snoc]
    exact announced.toggles

theorem Announced.disconnect (announced : Announced history shared ghosts)
    (serving : ghosts (.streamWorker index) = .serving) :
    Announced (history ++ [⟨.streamWorker index, ⟨ledClientDisconnected, ()⟩⟩])
      (shared.observe (.streamWorker index) ⟨ledClientDisconnected, ()⟩)
      (Function.update ghosts (.streamWorker index)
        ((ghosts (.streamWorker index)).after (⟨ledClientDisconnected, ()⟩ : HttpEvent workers))) := by
  have seen : clientSession (⟨.streamWorker index, ⟨ledClientDisconnected, ()⟩⟩ : HttpStep workers) =
    some (index, .closed) := rfl
  have closed := announced.sessions.event seen (by rw [serving]; rfl)
  have fewer := card_closed (closed.proper.of_snoc).2 seen
  have clients := announced.clients
  have some : shared.connectedClientCount > 0 := by
    rw [gt_iff_lt, UInt32.lt_iff_toNat_lt, clients, ← fewer]
    exact Nat.succ_pos _
  have observed : shared.observe (.streamWorker index) (⟨ledClientDisconnected, ()⟩ : HttpEvent workers) =
    { shared with connectedClientCount := shared.connectedClientCount - 1 } := if_pos some
  rw [observed]
  constructor
  · rw [flags_update ClientGhost.connected]
    exact closed
  · rw [flags_update ClientGhost.uncounted]
    have same : ((ghosts (.streamWorker index)).after (⟨ledClientDisconnected, ()⟩ : HttpEvent workers)).uncounted =
      (ghosts (.streamWorker index)).uncounted := rfl
    rw [same, Function.update_eq_self]
    exact announced.packets.other rfl
  · have one : (1 : UInt32).toNat = 1 := rfl
    have below : (1 : UInt32) ≤ shared.connectedClientCount := by
      rw [UInt32.le_iff_toNat_le, one]
      exact some
    have count : (shared.connectedClientCount - 1).toNat = shared.connectedClientCount.toNat - 1 :=
      UInt32.toNat_sub_of_le _ _ below
    rw [count]
    omega
  · rw [packetsPending_snoc]
    exact announced.toggles

theorem Announced.chunk (announced : Announced history shared ghosts)
    (serving : ghosts (.streamWorker index) = .serving) {req data len} {err : EspErr} :
    Announced (history ++ [⟨.streamWorker index, ⟨respSendChunk req data len, err⟩⟩])
      (shared.observe (.streamWorker index) ⟨respSendChunk req data len, err⟩)
      (Function.update ghosts (.streamWorker index)
        ((ghosts (.streamWorker index)).after (⟨respSendChunk req data len, err⟩ : HttpEvent workers))) := by
  by_cases sent : err = espOk
  · have seen : packetSession (⟨.streamWorker index, ⟨respSendChunk req data len, err⟩⟩ : HttpStep workers) =
      some (index, .opened) := if_pos sent
    have opened := announced.packets.event seen (by rw [serving]; rfl)
    have after : (ghosts (.streamWorker index)).after (⟨respSendChunk req data len, err⟩ : HttpEvent workers) =
        ⟨(ghosts (.streamWorker index)).connected, true⟩ := by
      simp [ClientGhost.after, sent]
    rw [after]
    constructor
    · rw [flags_update ClientGhost.connected, Function.update_eq_self]
      exact announced.sessions.other rfl
    · rw [flags_update ClientGhost.uncounted]
      exact opened
    · rw [openSessions_other rfl]
      exact announced.clients
    · rw [packetsPending_snoc]
      exact announced.toggles
  · apply announced.other rfl (by simp)
    · exact if_neg sent
    · rw [serving]
      simp [ClientGhost.after, ClientGhost.serving, sent]

theorem Announced.packet (announced : Announced history shared ghosts)
    (sent : ghosts (.streamWorker index) = ⟨true, true⟩) :
    Announced (history ++ [⟨.streamWorker index, ⟨ledPacketConsumed, ()⟩⟩])
      (shared.observe (.streamWorker index) ⟨ledPacketConsumed, ()⟩)
      (Function.update ghosts (.streamWorker index)
        ((ghosts (.streamWorker index)).after (⟨ledPacketConsumed, ()⟩ : HttpEvent workers))) := by
  have seen : packetSession (⟨.streamWorker index, ⟨ledPacketConsumed, ()⟩⟩ : HttpStep workers) =
    some (index, .closed) := rfl
  have closed := announced.packets.event seen (by rw [sent]; rfl)
  -- the client of the packet is counted
  have some : shared.connectedClientCount > 0 := by
    have member : index ∈ openSessions clientSession history := by
      rw [mem_openSessions, ← announced.sessions.tracks, sent]
    rw [gt_iff_lt, UInt32.lt_iff_toNat_lt, announced.clients]
    exact Finset.card_pos.mpr ⟨index, member⟩
  have counts : (shared.observe (.streamWorker index) (⟨ledPacketConsumed, ()⟩ : HttpEvent workers)).connectedClientCount =
      shared.connectedClientCount := by
    rw [HttpShared.observe]
    split <;> rfl
  constructor
  · rw [flags_update ClientGhost.connected]
    have same : ((ghosts (.streamWorker index)).after (⟨ledPacketConsumed, ()⟩ : HttpEvent workers)).connected =
      (ghosts (.streamWorker index)).connected := rfl
    rw [same, Function.update_eq_self]
    exact announced.sessions.other rfl
  · rw [flags_update ClientGhost.uncounted]
    exact closed
  · rw [counts, openSessions_other rfl]
    exact announced.clients
  · have toggles := announced.toggles
    have one : (1 : UInt32).toNat = 1 := rfl
    have last : (0xFFFFFFFF : UInt32).toNat = 0xFFFFFFFF := rfl
    rw [packetsPending_snoc, HttpShared.observe]
    split
    · rename_i counted
      have room := UInt32.lt_iff_toNat_lt.mp counted.2
      rw [last] at room
      change (shared.pendingPacketToggles + 1).toNat = min (packetsPending history + 1) _
      rw [UInt32.toNat_add, one, Nat.mod_eq_of_lt (by omega)]
      omega
    · rename_i full
      have full : ¬shared.pendingPacketToggles < 0xFFFFFFFF := fun room => full ⟨some, room⟩
      rw [UInt32.lt_iff_toNat_lt, last] at full
      change shared.pendingPacketToggles.toNat = min (packetsPending history + 1) _
      omega

theorem Announced.take (announced : Announced history shared ghosts) {counters : LedReply} :
    Announced (history ++ [⟨t, ⟨ledCountersTake, counters⟩⟩]) (shared.observe t ⟨ledCountersTake, counters⟩)
      (Function.update ghosts t ((ghosts t).after (⟨ledCountersTake, counters⟩ : HttpEvent workers))) := by
  have same : (ghosts t).after (⟨ledCountersTake, counters⟩ : HttpEvent workers) = ghosts t := rfl
  have noSession : clientSession ⟨t, ⟨ledCountersTake, counters⟩⟩ = none := by cases t <;> rfl
  rw [same, Function.update_eq_self]
  constructor
  · exact announced.sessions.other noSession
  · apply announced.packets.other
    cases t <;> rfl
  · rw [openSessions_other noSession]
    exact announced.clients
  · rw [packetsPending_snoc]
    rfl

/-- What one call preserves. -/
theorem Announced.step (announced : Announced history shared ghosts) (few : workers < 2 ^ 32) (makes : t.makes c = true)
    (permits : (ghosts t).Permits c) :
    Announced (history ++ [⟨t, ⟨c, reply⟩⟩]) (shared.observe t ⟨c, reply⟩)
      (Function.update ghosts t ((ghosts t).after ⟨c, reply⟩)) := by
  cases c with
  | ledClientConnected =>
      cases t with
      | streamWorker index => exact announced.connect few permits
      | _ => cases makes
  | ledClientDisconnected =>
      cases t with
      | streamWorker index => exact announced.disconnect permits
      | _ => cases makes
  | ledPacketConsumed =>
      cases t with
      | streamWorker index => exact announced.packet permits
      | _ => cases makes
  | respSendChunk req data len =>
      cases t with
      | streamWorker index => exact announced.chunk permits
      | _ => cases makes
  | ledCountersTake => exact announced.take
  | _ => exact announced.other rfl (by simp) (by cases t <;> rfl) rfl

end Step

theorem announced_of_exec (few : workers < 2 ^ 32) {history s} (run : (httpSystem workers).Exec history s) :
    ∃ ghosts, Announced history s.shared ghosts ∧ ∀ t, (clientOutline workers).Keeps t (s.task t) (ghosts t) := by
  have nothing : openSessions (@clientSession workers) [] = ∅ := openSessions_nil
  have starts (t : HttpTask workers) :
      (clientOutline workers).head t t.start .idle := by
    cases t <;> exact ⟨rfl, rfl⟩
  apply Tasks.invariant_of_outline (fun _ _ _ head => client_keeps head) starts _ _ run
  · constructor
    · exact ⟨fun index => iff_of_false nofun not_inSession_nil, properSessions_nil⟩
    · exact ⟨fun index => iff_of_false nofun not_inSession_nil, properSessions_nil⟩
    · rw [nothing]
      rfl
    · rfl
  · intro history shared ghosts t round c answer reply announced allowed _
    exact announced.step few allowed.1 allowed.2

/-- What a run says about the counters of the LED. -/
structure LedAccount (history : List (HttpStep workers)) (s : HttpStack workers) : Prop where
  /-- A worker announces a client when it has no other, and its going once. -/
  sessions : ProperSessions clientSession history
  /-- It sends only to a client that it has announced, and completes only a request whose
      client it has signed off. -/
  inside : ∀ before index event after needed, history = before ++ ⟨.streamWorker index, event⟩ :: after →
    event.call.inSession = some needed → (InSession clientSession index before ↔ needed = true)
  /-- The counter is the number of clients. -/
  clients : s.shared.connectedClientCount.toNat = (openSessions clientSession history).card
  /-- Each packet that has been sent is counted once, before anything else is sent. -/
  packets : ProperSessions packetSession history
  sent : sessionCount packetSession .opened history =
    sessionCount packetSession .closed history + (openSessions packetSession history).card
  /-- No packet is lost on the way to the LED task, as far as the counter reaches. -/
  toggles : s.shared.pendingPacketToggles.toNat = min (packetsPending history) 0xFFFFFFFF

theorem led_account (few : workers < 2 ^ 32) {history s} (run : (httpSystem workers).Exec history s) :
    LedAccount history s := by
  obtain ⟨ghosts, announced, -⟩ := announced_of_exec few run
  constructor
  · exact announced.sessions.proper
  · intro before index event after needed split needs
    obtain ⟨earlier, answer, later, ran, about, -⟩ := Tasks.call_in_run _ run split
    obtain ⟨ghosts, announced, keeps⟩ := announced_of_exec few ran
    have next := keeps (.streamWorker index)
    rw [Outline.Keeps, about] at next
    have permits := next.1.2
    rw [← announced.sessions.tracks]
    obtain ⟨c, reply⟩ := event
    cases c <;> cases needs <;> simp_all [ClientGhost.Permits, ClientGhost.idle, ClientGhost.serving]
  · exact announced.clients
  · exact announced.packets.proper
  · exact announced.packets.proper.count_eq
  · exact announced.toggles

/-- The client that has got its packet is the only one. -/
theorem packet_accounted : packetsPending (deliveryRun.get deliveryRun_isSome).2 = 1 ∧
    LedAccount (deliveryRun.get deliveryRun_isSome).2 (deliveryRun.get deliveryRun_isSome).1 :=
  ⟨by decide +kernel, led_account (by decide) deliveryRun_exec⟩

end EspGnss.Http
