import EspGnss.Ota.Stack

/-! # Setting up the OTA stack

`ota_update_stack_init` runs before any OTA task exists. It creates the kernel
objects and opens the confirmation window when the running image is pending.
-/

namespace EspGnss.Ota

open Foundation OtaCall

def espErrNoMem : EspErr := 0x101

/-- The values of `esp_ota_img_states_t` that matter here. -/
inductive OtaImgState
  | pendingVerify
  | other
  deriving DecidableEq, Repr

inductive OtaInitCall
  | requestQueueCreate
  | workerReadyCreate
  | timerCreate (timer : OtaTimer)
  | psaCryptoInit
  | otaGetStatePartition (partition : EspPartition)
  | ota (c : OtaCall)
  deriving DecidableEq

/-- The outcome of `esp_ota_get_state_partition`. -/
structure StateReply where
  err : EspErr
  otaState : OtaImgState
  deriving DecidableEq, Repr

/-- Creating an object replies whether the handle is not null. -/
abbrev OtaInitCall.Reply : OtaInitCall → Type
  | requestQueueCreate | workerReadyCreate | timerCreate _ => Bool
  | psaCryptoInit => Int
  | otaGetStatePartition _ => StateReply
  | ota c => c.Reply

abbrev OtaInitEvent := CallEvent OtaInitCall.Reply

abbrev OtaInitProgram := CallTree OtaInitCall OtaInitCall.Reply

abbrev initCall (c : OtaInitCall) : OtaInitProgram c.Reply := CallTree.perform c

def otaUpdateStackInit : OtaInitProgram EspErr := do
  let requestQueue ← initCall .requestQueueCreate
  let workerReady ← initCall .workerReadyCreate
  let restartTimer ← initCall (.timerCreate .restart)
  let confirmationTimer ← initCall (.timerCreate .confirmation)
  if !requestQueue || !workerReady || !restartTimer || !confirmationTimer then return espErrNoMem
  let psaStatus ← initCall .psaCryptoInit
  if psaStatus ≠ psaSuccess then return espFail
  let running ← initCall (.ota otaGetRunningPartition)
  match running with
  | none => return espOk
  | some running =>
      let state ← initCall (.otaGetStatePartition running)
      if state.err = espOk ∧ state.otaState = .pendingVerify then
        let _ ← initCall (.ota (confirmationPendingSet true))
        let started ← initCall (.ota (timerStart .confirmation))
        if !started then return espFail
      return espOk

/-- What setting up does to the shared objects. -/
def OtaShared.initObserve (shared : OtaShared) : OtaInitEvent → OtaShared
  | ⟨.ota c, reply⟩ => shared.observe ⟨c, reply⟩
  | _ => shared

/-- ESP-IDF reports the running image as `ESP_OTA_IMG_PENDING_VERIFY`. -/
def reportsPending : OtaInitEvent → Bool
  | ⟨.otaGetStatePartition _, state⟩ => state.err = espOk ∧ state.otaState = .pendingVerify
  | _ => false

/-- The stack when its tasks start, after what happened while it was set up. -/
def OtaStack.afterInit (events : List OtaInitEvent) : OtaStack :=
  { OtaStack.initial false with shared := events.foldl OtaShared.initObserve (OtaStack.initial false).shared }

theorem otaUpdateStackInit_meets : otaUpdateStackInit.Meets (Monitor.onHistory fun _ _ => True)
    (fun events err => err = espOk →
      OtaStack.afterInit events = .initial (events.any reportsPending)) [] := by
  simp only [otaUpdateStackInit, CallTree.meets_bind, CallTree.meets_perform, CallTree.meets_ite,
    CallTree.pure_eq, CallTree.meets_done, Monitor.onHistory_allows, Monitor.onHistory_observe,
    List.nil_append, List.cons_append, true_and]
  intro requestQueue workerReady restartTimer confirmationTimer
  split
  · intro failed
    cases failed
  intro psaStatus
  split
  · intro failed
    cases failed
  intro running
  cases running with
  | none => exact fun _ => rfl
  | some running =>
      simp only [CallTree.meets_bind, CallTree.meets_perform, CallTree.meets_ite,
        CallTree.meets_done, Monitor.onHistory_allows, Monitor.onHistory_observe,
        List.nil_append, List.cons_append, true_and]
      intro state
      split
      · rename_i pending
        intro _ started
        cases started with
        | false =>
            intro failed
            cases failed
        | true =>
            intro _
            simp [reportsPending, pending]
            rfl
      · rename_i settled
        intro _
        simp [reportsPending, settled]
        rfl

/-- A stack that has been set up waits for a confirmation exactly when the running
    image is reported pending. -/
theorem afterInit_eq (env : CallTree.Environment OtaInitCall.Reply)
    (ready : (otaUpdateStackInit.run env []).2 = espOk) :
    OtaStack.afterInit (otaUpdateStackInit.run env []).1 =
      .initial ((otaUpdateStackInit.run env []).1.any reportsPending) :=
  (otaUpdateStackInit_meets.run_history env).1 ready

end EspGnss.Ota
