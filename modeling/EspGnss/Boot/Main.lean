import EspGnss.Boot.Interface

/-! # `app_main.c`

Start-up: `app_main` with the functions of every module that create kernel objects, start
tasks and timers and register handlers. Log output is left out but for the two lines of
`app_main`, stack sizes and priorities of tasks too.
-/

namespace EspGnss.Boot

open Foundation Gnss Http Log Ota Wifi

variable {workers : Nat}

/-- `CONFIG_STREAM_WIFI_SSID`, `_PASSWORD`, `_CHANNEL` and `CONFIG_STREAM_MAX_STA_CONNECTIONS`. -/
structure BootConfig where
  streamWifiSsid : String
  streamWifiPassword : String
  streamWifiChannel : Nat
  streamMaxStaConnections : Nat

/-- What follows a task creation, and the last check of a start function. -/
def createdErr (created : Bool) : EspErr := if created then espOk else espErrNoMem

def logStreamStackInit : BootProgram workers EspErr := do
  let requestQueue ← call (.queueCreate .logRequestQueue 1)
  let workerReady ← call (.semaphoreCreateBinary .logWorkerReady)
  if !requestQueue || !workerReady then return espErrNoMem
  let _ ← call .logSetVprintf
  return espOk

def logStreamRegisterHttpHandlers : BootProgram workers EspErr := call (.httpdRegisterUriHandler .log)

def logStreamStartTask : BootProgram workers EspErr := do
  let created ← call (.taskCreatePinnedToCore .logWorkerTask)
  return createdErr created

def genericStackInit : BootProgram workers EspErr := do
  let err ← call .gpioResetPin
  espErrorCheck err
  let err ← call .gpioSetDirection
  espErrorCheck err
  let err ← call (.gpioSetLevel false)
  espErrorCheck err
  return espOk

def genericStackStartTask : BootProgram workers EspErr := do
  let created ← call (.taskCreatePinnedToCore .genericTask)
  return createdErr created

/-- `STREAM_AP_IP_A` to `STREAM_AP_IP_D` -/
def streamApIp : Vector UInt8 4 := #v[192, 168, 1, 1]

def setSoftapIp : BootProgram workers Unit := do
  let err ← call .netifDhcpsStop
  espErrorCheck err
  let err ← call (.netifSetIpInfo ⟨streamApIp, streamApIp, #v[255, 255, 255, 0]⟩)
  espErrorCheck err
  let err ← call .netifDhcpsStart
  espErrorCheck err

/-- An empty password makes an open access point. -/
def wifiApConfig (config : BootConfig) : WifiApConfig where
  ssid := config.streamWifiSsid
  ssidLen := config.streamWifiSsid.utf8ByteSize
  channel := config.streamWifiChannel
  password := config.streamWifiPassword
  maxConnection := config.streamMaxStaConnections
  authmode := if config.streamWifiPassword.utf8ByteSize = 0 then .openAp else .wpa2Psk

def wifiApStackInit (config : BootConfig) : BootProgram workers EspErr := do
  let eventQueue ← call (.queueCreate .wifiEventQueue wifiEventQueueLength)
  if !eventQueue then return espErrNoMem
  let err ← call .netifInit
  espErrorCheck err
  let err ← call .eventLoopCreateDefault
  espErrorCheck err
  let apNetif ← call .netifCreateDefaultWifiAp
  if !apNetif then return espErrNoMem
  setSoftapIp
  let err ← call .wifiInit
  espErrorCheck err
  let err ← call .eventHandlerInstanceRegister
  espErrorCheck err
  let err ← call .wifiSetMode
  espErrorCheck err
  let err ← call (.wifiSetConfig (wifiApConfig config))
  espErrorCheck err
  let err ← call .wifiStart
  espErrorCheck err
  return espOk

def wifiApStartTask : BootProgram workers EspErr := do
  let created ← call (.taskCreatePinnedToCore .wifiStackTask)
  return createdErr created

/-- The queues, the set and the semaphores of `gnss_stack_init`: whether there are all. -/
def gnssObjectsCreate : BootProgram workers Bool := do
  let candidateQueue ← call (.queueCreate (.filterQueue .candidate) (FilterMember.queueLength .candidate))
  let timerEventQueue ← call (.queueCreate (.filterQueue .timer) (FilterMember.queueLength .timer))
  let filterControlQueue ← call (.queueCreate (.filterQueue .control) (FilterMember.queueLength .control))
  let publicationQueue ← call (.queueCreate .publicationQueue 1)
  let filterQueueSet ← call (.queueCreateSet
    (FilterMember.queueLength .candidate + FilterMember.queueLength .timer + FilterMember.queueLength .control))
  let parserMutex ← call (.semaphoreCreateMutex .parserMutex)
  let overrideFlushDone ← call (.semaphoreCreateBinary .overrideFlushDone)
  return candidateQueue && timerEventQueue && filterControlQueue && publicationQueue && filterQueueSet &&
    parserMutex && overrideFlushDone

/-- Whether one queue after the other could be added to the set. -/
def filterQueuesAdd : List FilterMember → BootProgram workers Bool
  | [] => return true
  | member :: rest => do
      let added ← call (.queueAddToSet member)
      if !added then return false
      filterQueuesAdd rest

def gnssStackInit : BootProgram workers EspErr := do
  let created ← gnssObjectsCreate
  if !created then return espErrNoMem
  let added ← filterQueuesAdd [.candidate, .timer, .control]
  if !added then return espFail
  let selectionTimer ← call .timerCreate
  if !selectionTimer then return espErrNoMem
  return espOk

def gnssStackStartTasks : BootProgram workers EspErr := do
  let created ← call (.taskCreatePinnedToCore .gnssFilterTask)
  if !created then return espErrNoMem
  let started ← call .timerStart
  if !started then return espFail
  let created ← call (.taskCreatePinnedToCore .gnssInitTask)
  if !created then return espErrNoMem
  return espOk

/-- `ota_update_stack_init`, whose calls are calls of start-up. -/
def otaUpdateStackInit : BootProgram workers EspErr :=
  CallTree.handle (fun c => call (.ota c)) Ota.otaUpdateStackInit

/-- Registering handlers under `ESP_ERROR_CHECK`. -/
def uriHandlersRegister : List BootUri → BootProgram workers Unit
  | [] => return ()
  | uri :: rest => do
      let err ← call (.httpdRegisterUriHandler uri)
      espErrorCheck err
      uriHandlersRegister rest

def otaUpdateRegisterHttpHandlers : BootProgram workers EspErr := do
  uriHandlersRegister [.ota .flash, .ota .status, .ota .confirm, .ota .rollback]
  return espOk

def otaUpdateStartTask : BootProgram workers EspErr := do
  let created ← call (.taskCreatePinnedToCore .otaWorkerTask)
  return createdErr created

def httpObjectsCreate : BootProgram workers Bool := do
  let requestQueue ← call (.queueCreate (.httpRequestQueue .stream) (HttpPool.capacity workers .stream))
  let writeRequestQueue ← call (.queueCreate (.httpRequestQueue .write) (HttpPool.capacity workers .write))
  let workerReady ← call (.semaphoreCreateCounting (.httpWorkerReady .stream) (HttpPool.capacity workers .stream))
  let writeWorkerReady ← call (.semaphoreCreateBinary (.httpWorkerReady .write))
  let latestMutex ← call (.semaphoreCreateMutex .latestMutex)
  return requestQueue && writeRequestQueue && workerReady && writeWorkerReady && latestMutex

/-- Sockets are reserved for the clients of every pool and for one more request. -/
def httpdConfig (workers : Nat) : HttpdConfig where
  lruPurgeEnable := false
  maxUriHandlers := 8
  maxOpenSockets := workers + 4

def httpStreamStackInit : BootProgram workers EspErr := do
  let created ← httpObjectsCreate
  if !created then return espErrNoMem
  let err ← call (.httpdStart (httpdConfig workers))
  espErrorCheck err
  uriHandlersRegister [.http .read, .http .view, .http .write]
  let err ← otaUpdateRegisterHttpHandlers
  espErrorCheck err
  let err ← logStreamRegisterHttpHandlers
  espErrorCheck err
  return espOk

/-- The loop of `http_stream_start_tasks`: whether every worker has been created. -/
def streamWorkersCreate : List (Fin workers) → BootProgram workers Bool
  | [] => return true
  | index :: rest => do
      let created ← call (.taskCreatePinnedToCore (.httpStreamWorkerTask index))
      if !created then return false
      streamWorkersCreate rest

def httpStreamStartTasks : BootProgram workers EspErr := do
  let created ← streamWorkersCreate (List.finRange workers)
  if !created then return espErrNoMem
  let created ← call (.taskCreatePinnedToCore .httpWriteWorkerTask)
  if !created then return espErrNoMem
  let created ← call (.taskCreatePinnedToCore .httpStackTask)
  return createdErr created

def initNvs : BootProgram workers Unit := do
  let err ← call (.nvsFlashInit false)
  if err = espErrNvsNoFreePages ∨ err = espErrNvsNewVersionFound then
    let err ← call .nvsFlashErase
    espErrorCheck err
    let err ← call (.nvsFlashInit true)
    espErrorCheck err
  else espErrorCheck err

/-- `APP_BOOT_NORMAL_MARKER` -/
def appBootNormalMarker : String := "ALL_TASKS_STARTED"

/-- A call of `app_main` under `ESP_ERROR_CHECK`. -/
def checked (program : BootProgram workers EspErr) : BootProgram workers Unit := do
  let err ← program
  espErrorCheck err

def appMain (config : BootConfig) : BootProgram workers Unit := do
  checked logStreamStackInit
  initNvs
  checked genericStackInit
  checked genericStackStartTask
  checked (wifiApStackInit config)
  checked gnssStackInit
  checked otaUpdateStackInit
  checked httpStreamStackInit
  checked otaUpdateStartTask
  checked wifiApStartTask
  checked gnssStackStartTasks
  checked httpStreamStartTasks
  checked logStreamStartTask
  let version ← call .appVersionString
  let _ ← call (.espLogi ("version:" ++ version))
  let _ ← call (.espLogi appBootNormalMarker)
  return ()

end EspGnss.Boot
