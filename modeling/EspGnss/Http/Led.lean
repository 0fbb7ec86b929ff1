import EspGnss.Http.Interface

/-! # `generic_task.c`

The LED functions that HTTP workers call, and the LED task.
-/

namespace EspGnss.Http

open Foundation HttpCall

variable {workers : Nat}

/-- `GENERIC_LED_STARTUP_BLINK_COUNT` -/
def genericLedStartupBlinkCount : Nat := 5
/-- `GENERIC_LED_STARTUP_TOGGLE_PERIOD_MS` -/
def genericLedStartupTogglePeriodMs : Nat := 200

/-- The calls of the LED functions. -/
def genericLedWakeTask : HttpProgram workers Unit := do
  let taskHandle ← call ledTaskHandle
  if taskHandle then call (notifyGive .led)

def genericLedClientConnected : HttpProgram workers Unit := do
  let _ ← call ledClientConnected
  genericLedWakeTask

def genericLedClientDisconnected : HttpProgram workers Unit := do
  let _ ← call ledClientDisconnected
  genericLedWakeTask

def genericLedPacketConsumed : HttpProgram workers Unit := do
  let _ ← call ledPacketConsumed
  genericLedWakeTask

/-- One pass through the startup loop of `generic_task`. -/
def genericTaskBlink : HttpProgram workers Unit := do
  let err ← call (gpioSetLevel true)
  espErrorCheck err
  let _ ← call (taskDelay genericLedStartupTogglePeriodMs)
  let err ← call (gpioSetLevel false)
  espErrorCheck err
  call (taskDelay genericLedStartupTogglePeriodMs)

/-- The loop over `packet_toggles`; it returns `led_on`. -/
def genericTaskToggle : (toggles : Nat) → (ledOn : Bool) → HttpProgram workers Bool
  | 0, ledOn => return ledOn
  | toggles + 1, ledOn => do
      let err ← call (gpioSetLevel !ledOn)
      espErrorCheck err
      genericTaskToggle toggles !ledOn

/-- One pass through the endless loop of `generic_task`; it returns `led_on`. -/
def genericTaskLoop (ledOn : Bool) : HttpProgram workers Bool := do
  let _ ← call (notifyTake .forever)
  let counters ← call ledCountersTake
  if counters.connectedClientCount = 0 then
    let err ← call (gpioSetLevel false)
    espErrorCheck err
    return false
  genericTaskToggle counters.packetToggles.toNat ledOn

end EspGnss.Http
