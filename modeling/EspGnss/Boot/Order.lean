import EspGnss.Boot.Ready

/-! # Start-up in order

However start-up interleaves with the parts it has started, and whatever its calls return,
a part finds every object it uses, and nothing is created or started twice. Start-up logs
that everything runs only when it does, and gives up only after a failure.
-/

namespace EspGnss.Boot

open Foundation Gnss Http Log Ota Wifi

variable {workers : Nat}

def BootPart.uri? : BootPart workers → Option BootUri
  | .uriHandler uri => some uri
  | _ => none

/-- The handlers that have been registered. -/
def registered (past : List (BootEvent workers)) : List BootUri := (past.filterMap bootStarts).filterMap BootPart.uri?

theorem registered_nodup {past : List (BootEvent workers)} (once : (past.filterMap bootStarts).Nodup) :
    (registered past).Nodup := by
  apply once.filterMap
  intro part other uri here there
  cases part <;> cases other <;> simp [BootPart.uri?] at here there
  rw [here, there]

/-- No two handlers answer the same requests. -/
theorem uri_injective : Function.Injective fun uri : BootUri => (uri.path, uri.method) := by
  intro uri other same
  rcases uri with uri | uri | _ <;> rcases other with other | other | _
  all_goals first
    | cases uri <;> cases other <;> simp [BootUri.path, BootUri.method] at same ⊢
    | cases uri <;> simp [BootUri.path, BootUri.method] at same ⊢
    | cases other <;> simp [BootUri.path, BootUri.method] at same ⊢
    | rfl

/-- The server has room for all handlers. -/
theorem registered_le (uris : List BootUri) (nodup : uris.Nodup) : uris.length ≤ (httpdConfig workers).maxUriHandlers := by
  have all : uris ⊆ [.http .read, .http .view, .http .write, .ota .flash, .ota .status, .ota .confirm, .ota .rollback, .log] := by
    intro uri _
    rcases uri with uri | uri | _
    · cases uri <;> decide
    · cases uri <;> decide
    · decide
  exact (nodup.subperm all).length_le

/-- Everything has been created and started, and no call has failed. The confirmation timeout
    runs only where an update waits to be confirmed. -/
structure BootComplete (past : List (BootEvent workers)) : Prop where
  created : ∀ object, ∃ event ∈ past, bootCreates event = some object
  started : ∀ part, part ≠ .confirmationTimeout → ∃ event ∈ past, bootStarts event = some part
  succeeded : ∀ event ∈ past, bootFails event = false

theorem Ready.complete {past : List (BootEvent workers)} {progress : Startup.Progress BootObject (BootPart workers)}
    (ready : Ready (BootStage.logStreamStartTask.place + 1) progress)
    (accounts : (bootStartup workers).Accounts past progress) : BootComplete past := by
  have last (stage : BootStage) : stage.place < BootStage.logStreamStartTask.place + 1 := by
    cases stage <;> decide
  constructor
  · intro object
    exact (accounts.created object).mp ((ready.created object).mpr (last _))
  · intro part other
    exact (accounts.started part).mp ((ready.started part other).mpr (last _))
  · have clear := ready.clear
    rw [accounts.failed] at clear
    simpa using clear

abbrev BootRunEvent (workers : Nat) := StartupEvent (@BootCall.Reply workers) BootObject (BootPart workers)

/-- How start-up ends. -/
structure BootEnds (history : List (BootRunEvent workers)) (s : StartupState (@BootCall.Reply workers)) : Prop where
  /-- The marker of a normal boot is logged only when everything runs. -/
  announced : ∀ before reply after,
    history = before ++ .called ⟨.espLogi appBootNormalMarker, reply⟩ :: after → BootComplete (Startup.calls before)
  returned : s.program = .done () → BootComplete (Startup.calls history)
  /-- It gives up only after a failure. -/
  gaveUp : s.program.head? = some .abort → ∃ event ∈ Startup.calls history, bootFails event = true
  /-- The handlers fit in the server's table, and no two answer the same requests. -/
  handlers : (registered (Startup.calls history)).length ≤ (httpdConfig workers).maxUriHandlers ∧
    ((registered (Startup.calls history)).map fun uri => (uri.path, uri.method)).Nodup

/-- In every interleaving of start-up with the parts that it has started, whatever its calls
    return, a part uses only objects that exist, and nothing is created or started twice. -/
theorem boot_in_order (config : BootConfig) {history s}
    (run : ((bootStartup workers).system (appMain config)).Exec history s) :
    (bootStartup workers).InOrder history :=
  Startup.inOrder_of_exec (appMain_meets config) run

theorem boot_ends (config : BootConfig) {history s}
    (run : ((bootStartup workers).system (appMain config)).Exec history s) : BootEnds history s := by
  have once := (Startup.inOrder_of_exec (appMain_meets config) run).startedOnce
  obtain ⟨past, progress, accounts, meets⟩ := Startup.accounts_of_exec (appMain_meets config) run
  rw [past] at accounts
  constructor
  · intro before reply after split
    obtain ⟨progress, accounts, demanded⟩ := Startup.demanded_in_run (appMain_meets config) run split
    exact (demanded rfl).complete accounts
  · intro ended
    rw [ended] at meets
    exact Ready.complete meets accounts
  · intro aborts
    obtain ⟨progress, accounts, failed⟩ := Startup.demanded_of_exec (appMain_meets config) run aborts
    have failed : progress.failed = true := failed
    rw [accounts.failed] at failed
    exact List.any_eq_true.mp failed
  · have nodup := registered_nodup once
    exact ⟨registered_le _ nodup, nodup.map uri_injective⟩

def normalAnswers : (c : BootCall workers) → Option c.Reply
  | .queueCreate _ _ | .queueCreateSet _ | .queueAddToSet _ | .semaphoreCreateBinary _ | .semaphoreCreateCounting _ _
  | .semaphoreCreateMutex _ | .timerCreate | .timerStart | .taskCreatePinnedToCore _ | .netifCreateDefaultWifiAp
  | .ota .requestQueueCreate | .ota .workerReadyCreate | .ota (.timerCreate _) => some true
  | .nvsFlashInit _ | .nvsFlashErase | .gpioResetPin | .gpioSetDirection | .gpioSetLevel _ | .netifInit
  | .eventLoopCreateDefault | .netifDhcpsStop | .netifSetIpInfo _ | .netifDhcpsStart | .wifiInit
  | .eventHandlerInstanceRegister | .wifiSetMode | .wifiSetConfig _ | .wifiStart | .httpdStart _
  | .httpdRegisterUriHandler _ => some espOk
  | .ota .psaCryptoInit => some psaSuccess
  | .ota (.otaGetStatePartition _) => some ⟨espOk, .other⟩
  | .ota (.ota .otaGetRunningPartition) => some none
  | .ota (.ota _) => none
  | .logSetVprintf | .espLogi _ => some ()
  | .appVersionString => some "0.1.0"
  | .abort => none

def openAccessPoint : BootConfig := ⟨"gnss", "", 1, 4⟩

def normalBoot : List (BootRunEvent 2) := (Startup.play normalAnswers (appMain openAccessPoint)).map .called

-- a boot in which nothing fails ends with the marker
example : normalBoot.getLast? = some (.called ⟨.espLogi appBootNormalMarker, ()⟩) := by rfl

theorem normalBoot_exec : ∃ s, ((bootStartup 2).system (appMain openAccessPoint)).Exec normalBoot s := by
  obtain ⟨rest, run⟩ := Startup.exec_play_start (bootStartup 2) normalAnswers (appMain openAccessPoint)
  exact ⟨_, run⟩

theorem normalBoot_in_order : (bootStartup 2).InOrder normalBoot := by
  obtain ⟨s, run⟩ := normalBoot_exec
  exact boot_in_order openAccessPoint run

theorem normalBoot_ends : ∃ s, BootEnds normalBoot s := by
  obtain ⟨s, run⟩ := normalBoot_exec
  exact ⟨s, boot_ends openAccessPoint run⟩

end EspGnss.Boot
