import EspGnss.Foundation.Startup
import EspGnss.Http.Calls
import EspGnss.Log.Stack
import EspGnss.Ota.Init
import EspGnss.Wifi.Stack

/-! # What start-up code calls

`app_main` and the functions it calls create the kernel objects, start the tasks and
timers and register the handlers of the other modules. `abort` has no reply: it never
returns.
-/

namespace EspGnss.Boot

open Foundation Gnss Http Log Ota Wifi

/-- The calls of `app_main`, in its order; `init_nvs` is one of them. -/
inductive BootStage where
  | logStreamStackInit
  | initNvs
  | genericStackInit
  | genericStackStartTask
  | wifiApStackInit
  | gnssStackInit
  | otaUpdateStackInit
  | httpStreamStackInit
  | otaUpdateStartTask
  | wifiApStartTask
  | gnssStackStartTasks
  | httpStreamStartTasks
  | logStreamStartTask
  deriving DecidableEq, Repr

/-- Its place in that order. -/
def BootStage.place : BootStage → Nat
  | logStreamStackInit => 0
  | initNvs => 1
  | genericStackInit => 2
  | genericStackStartTask => 3
  | wifiApStackInit => 4
  | gnssStackInit => 5
  | otaUpdateStackInit => 6
  | httpStreamStackInit => 7
  | otaUpdateStartTask => 8
  | wifiApStartTask => 9
  | gnssStackStartTasks => 10
  | httpStreamStartTasks => 11
  | logStreamStartTask => 12

/-- The objects that start-up creates, under the names of their handles. -/
inductive BootObject where
  | logRequestQueue
  | logWorkerReady
  | wifiEventQueue
  /-- `s_candidate_queue`, `s_timer_event_queue` and `s_filter_control_queue`. -/
  | filterQueue (member : FilterMember)
  | publicationQueue
  | filterQueueSet
  /-- That the queue is a member of the set. -/
  | filterQueueInSet (member : FilterMember)
  | parserMutex
  | overrideFlushDone
  | selectionTimer
  | otaRequestQueue
  | otaWorkerReady
  | otaTimer (timer : OtaTimer)
  /-- `s_http_request_queue` and `s_http_write_request_queue`. -/
  | httpRequestQueue (pool : HttpPool)
  /-- `s_http_worker_ready` and `s_http_write_worker_ready`. -/
  | httpWorkerReady (pool : HttpPool)
  | latestMutex
  | httpServer
  deriving DecidableEq, Repr

/-- The function that creates an object. -/
def BootObject.stage : BootObject → BootStage
  | logRequestQueue | logWorkerReady => .logStreamStackInit
  | wifiEventQueue => .wifiApStackInit
  | filterQueue _ | publicationQueue | filterQueueSet | filterQueueInSet _ | parserMutex | overrideFlushDone
  | selectionTimer => .gnssStackInit
  | otaRequestQueue | otaWorkerReady | otaTimer _ => .otaUpdateStackInit
  | httpRequestQueue _ | httpWorkerReady _ | latestMutex | httpServer => .httpStreamStackInit

/-- The objects that a step of the tasks of `gnss.c` operates on. -/
def gnssObjects : GnssAction → List BootObject
  | .initReset | .uartFeed _ | .feedReturn | .overrideBegin | .overrideFeed _ | .endEnter _ | .endClose _ =>
      [.parserMutex]
  | .feedByte => [.filterQueue .candidate, .filterQueueInSet .candidate, .filterQueueSet]
  | .endDiscard _ | .endTake _ => [.overrideFlushDone]
  | .endSend _ => [.filterQueue .control, .filterQueueInSet .control, .filterQueueSet]
  | .timerExpire => [.filterQueue .timer, .filterQueueInSet .timer, .filterQueueSet]
  | .filterStep =>
      [.filterQueueSet, .filterQueue .candidate, .filterQueue .timer, .filterQueue .control, .parserMutex,
        .publicationQueue, .overrideFlushDone]
  | .publicationReceive => [.publicationQueue]

/-- The objects that a call of the tasks of `http_stream.c` operates on; the override
    functions go through several steps of `gnss.c`. -/
def httpObjects {workers : Nat} : HttpCall workers → List BootObject
  | .workerReadyTake pool | .workerReadyGive pool => [.httpWorkerReady pool]
  | .requestQueueSend pool _ | .requestQueueReceive pool => [.httpRequestQueue pool]
  | .latestCopyIfNew _ | .latestStore _ => [.latestMutex]
  | .gnssPublicationReceive => gnssObjects .publicationReceive
  | .gnssOverrideBegin => gnssObjects .overrideBegin
  | .gnssOverrideFeed buffer => gnssObjects (.overrideFeed buffer) ++ gnssObjects .feedByte ++ gnssObjects .feedReturn
  | .gnssOverrideEnd =>
      gnssObjects (.endEnter 0) ++ gnssObjects (.endDiscard 0) ++ gnssObjects (.endSend 0) ++
        gnssObjects (.endTake 0) ++ gnssObjects (.endClose 0)
  | _ => []

def otaObjects : OtaCall → List BootObject
  | .timerStart timer | .timerStop timer => [.otaTimer timer]
  | .workerReadyTake | .workerReadyGive => [.otaWorkerReady]
  | .requestQueueSend _ | .requestQueueReceive => [.otaRequestQueue]
  | _ => []

def logObjects : LogCall → List BootObject
  | .workerReadyTake | .workerReadyGive => [.logWorkerReady]
  | .requestQueueSend _ | .requestQueueReceive => [.logRequestQueue]
  | _ => []

def wifiObjects : WifiCall → List BootObject
  | .queueSend _ | .queueReceive => [.wifiEventQueue]
  | _ => []

inductive HttpdMethod where
  | get
  | post
  deriving DecidableEq, Repr

/-- The handlers of the server. -/
inductive BootUri where
  | http (uri : HttpUri)
  | ota (uri : OtaUri)
  | log
  deriving DecidableEq, Repr

/-- `httpd_uri_t` -/
def BootUri.path : BootUri → String
  | http .read => "/stream"
  | http .view => "/view"
  | http .write => "/write"
  | ota .flash => "/flash"
  | ota .status => "/flash/status"
  | ota .confirm => "/flash/confirm"
  | ota .rollback => "/flash/rollback"
  | log => "/log"

def BootUri.method : BootUri → HttpdMethod
  | http .read | http .view | ota .status | log => .get
  | http .write | ota .flash | ota .confirm | ota .rollback => .post

/-- What runs once start-up has set it going: tasks, timer callbacks, the handler of Wi-Fi
    events, the handlers of the server and the replacement for `vprintf`. -/
inductive BootPart (workers : Nat) where
  | logCaptureVprintf
  | genericTask
  | wifiEventHandler
  | confirmationTimeout
  | uriHandler (uri : BootUri)
  | otaWorkerTask
  | wifiStackTask
  | gnssFilterTask
  | selectionTimerCallback
  /-- With the task that it starts, `gnss_uart_task`. -/
  | gnssInitTask
  | httpStreamWorkerTask (index : Fin workers)
  | httpWriteWorkerTask
  | httpStackTask
  | logWorkerTask
  deriving DecidableEq, Repr

variable {workers : Nat}

/-- The function that starts a part. -/
def BootPart.stage : BootPart workers → BootStage
  | logCaptureVprintf => .logStreamStackInit
  | genericTask => .genericStackStartTask
  | wifiEventHandler => .wifiApStackInit
  | confirmationTimeout => .otaUpdateStackInit
  | uriHandler _ => .httpStreamStackInit
  | otaWorkerTask => .otaUpdateStartTask
  | wifiStackTask => .wifiApStartTask
  | gnssFilterTask | selectionTimerCallback | gnssInitTask => .gnssStackStartTasks
  | httpStreamWorkerTask _ | httpWriteWorkerTask | httpStackTask => .httpStreamStartTasks
  | logWorkerTask => .logStreamStartTask

/-- What a part calls uses this object. The programs of `ota_update.c` and `log_stream.c` are
    taken to make every call of their interfaces. -/
def BootPart.Uses : BootPart workers → BootObject → Prop
  | logCaptureVprintf, object | logWorkerTask, object => ∃ c, object ∈ logObjects c
  | genericTask, object => ∃ c, (HttpTask.led : HttpTask workers).makes c ∧ object ∈ httpObjects c
  | wifiEventHandler, object | wifiStackTask, object => ∃ c, object ∈ wifiObjects c
  | confirmationTimeout, object | otaWorkerTask, object => ∃ c, object ∈ otaObjects c
  | uriHandler uri, object =>
      object = .httpServer ∨
        match uri with
        | .http _ => ∃ c, (HttpTask.httpd : HttpTask workers).makes c ∧ object ∈ httpObjects c
        | .ota _ => ∃ c, object ∈ otaObjects c
        | .log => ∃ c, object ∈ logObjects c
  | gnssFilterTask, object => object ∈ gnssObjects .filterStep
  | selectionTimerCallback, object => object ∈ gnssObjects .timerExpire
  | gnssInitTask, object =>
      ∃ action, (action = .initReset ∨ (∃ data, action = .uartFeed data) ∨ action = .feedByte ∨ action = .feedReturn) ∧
        object ∈ gnssObjects action
  | httpStreamWorkerTask index, object => ∃ c, (HttpTask.streamWorker index).makes c ∧ object ∈ httpObjects c
  | httpWriteWorkerTask, object => ∃ c, (HttpTask.writeWorker : HttpTask workers).makes c ∧ object ∈ httpObjects c
  | httpStackTask, object => ∃ c, (HttpTask.dispatcher : HttpTask workers).makes c ∧ object ∈ httpObjects c

def espErrNvsNoFreePages : EspErr := 0x110d
def espErrNvsNewVersionFound : EspErr := 0x1110

/-- The values of `wifi_auth_mode_t` that are used. -/
inductive WifiAuthMode where
  | wpa2Psk
  | openAp
  deriving DecidableEq, Repr

/-- `wifi_config_t.ap` -/
structure WifiApConfig where
  ssid : String
  ssidLen : Nat
  channel : Nat
  password : String
  maxConnection : Nat
  authmode : WifiAuthMode
  deriving DecidableEq, Repr

/-- `esp_netif_ip_info_t` -/
structure IpInfo where
  ip : Vector UInt8 4
  gw : Vector UInt8 4
  netmask : Vector UInt8 4
  deriving DecidableEq, Repr

/-- What `http_stream_stack_init` sets in `httpd_config_t`. -/
structure HttpdConfig where
  lruPurgeEnable : Bool
  maxUriHandlers : Nat
  maxOpenSockets : Nat
  deriving DecidableEq, Repr

inductive BootCall (workers : Nat) where
  | queueCreate (queue : BootObject) (length : Nat)
  | queueCreateSet (length : Nat)
  | queueAddToSet (member : FilterMember)
  | semaphoreCreateBinary (semaphore : BootObject)
  | semaphoreCreateCounting (semaphore : BootObject) (maxCount : Nat)
  | semaphoreCreateMutex (mutex : BootObject)
  -- `s_selection_timer`
  | timerCreate
  | timerStart
  | taskCreatePinnedToCore (task : BootPart workers)
  | logSetVprintf
  -- the first call, or the one after the partition was erased
  | nvsFlashInit (erased : Bool)
  | nvsFlashErase
  | gpioResetPin
  | gpioSetDirection
  | gpioSetLevel (level : Bool)
  | netifInit
  | eventLoopCreateDefault
  | netifCreateDefaultWifiAp
  | netifDhcpsStop
  | netifSetIpInfo (info : IpInfo)
  | netifDhcpsStart
  | wifiInit
  | eventHandlerInstanceRegister
  | wifiSetMode
  | wifiSetConfig (config : WifiApConfig)
  | wifiStart
  | ota (c : OtaInitCall)
  | httpdStart (config : HttpdConfig)
  | httpdRegisterUriHandler (uri : BootUri)
  | appVersionString
  | espLogi (text : String)
  | abort
  deriving DecidableEq

/-- Creating an object replies whether the handle is not null, creating a task and adding to a
    set whether it was passed. -/
abbrev BootCall.Reply : BootCall workers → Type
  | queueCreate _ _ | queueCreateSet _ | queueAddToSet _ => Bool
  | semaphoreCreateBinary _ | semaphoreCreateCounting _ _ | semaphoreCreateMutex _ => Bool
  | timerCreate | timerStart | taskCreatePinnedToCore _ | netifCreateDefaultWifiAp => Bool
  | logSetVprintf | espLogi _ => Unit
  | nvsFlashInit _ | nvsFlashErase | gpioResetPin | gpioSetDirection | gpioSetLevel _ => EspErr
  | netifInit | eventLoopCreateDefault | netifDhcpsStop | netifSetIpInfo _ | netifDhcpsStart => EspErr
  | wifiInit | eventHandlerInstanceRegister | wifiSetMode | wifiSetConfig _ | wifiStart => EspErr
  | ota c => c.Reply
  | httpdStart _ | httpdRegisterUriHandler _ => EspErr
  | appVersionString => String
  | abort => Empty

abbrev BootEvent (workers : Nat) := CallEvent (@BootCall.Reply workers)

abbrev BootProgram (workers : Nat) := CallTree (BootCall workers) BootCall.Reply

abbrev call (c : BootCall workers) : BootProgram workers c.Reply := CallTree.perform c

/-- `ESP_ERROR_CHECK` -/
def espErrorCheck (err : EspErr) : BootProgram workers Unit :=
  if err = espOk then return ()
  else do
    let never ← call .abort
    nomatch never

end EspGnss.Boot
