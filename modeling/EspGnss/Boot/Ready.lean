import EspGnss.Boot.Main

/-! # Start-up in order

However start-up interleaves with the parts it has started, and whatever its calls return,
a part finds every object it uses, nothing is created or started twice, and start-up gives
up only after a failure. When it ends, everything runs.
-/

namespace EspGnss.Boot

open Foundation Gnss Http Log Ota Wifi

variable {workers : Nat}

/-- What a call of start-up creates. -/
@[simp] def bootCreates : BootEvent workers → Option BootObject
  | ⟨.queueCreate object _, created⟩ | ⟨.semaphoreCreateBinary object, created⟩
  | ⟨.semaphoreCreateCounting object _, created⟩ | ⟨.semaphoreCreateMutex object, created⟩ =>
      if created then some object else none
  | ⟨.queueCreateSet _, created⟩ => if created then some .filterQueueSet else none
  | ⟨.queueAddToSet member, added⟩ => if added then some (.filterQueueInSet member) else none
  | ⟨.timerCreate, created⟩ => if created then some .selectionTimer else none
  | ⟨.ota .requestQueueCreate, created⟩ => if created then some .otaRequestQueue else none
  | ⟨.ota .workerReadyCreate, created⟩ => if created then some .otaWorkerReady else none
  | ⟨.ota (.timerCreate timer), created⟩ => if created then some (.otaTimer timer) else none
  | ⟨.httpdStart _, err⟩ => if err = espOk then some .httpServer else none
  | _ => none

/-- What it starts. -/
@[simp] def bootStarts : BootEvent workers → Option (BootPart workers)
  | ⟨.taskCreatePinnedToCore part, created⟩ => if created then some part else none
  | ⟨.timerStart, started⟩ => if started then some .selectionTimerCallback else none
  | ⟨.logSetVprintf, _⟩ => some .logCaptureVprintf
  | ⟨.eventHandlerInstanceRegister, err⟩ => if err = espOk then some .wifiEventHandler else none
  | ⟨.ota (.ota (.timerStart .confirmation)), started⟩ => if started then some .confirmationTimeout else none
  | ⟨.httpdRegisterUriHandler uri, err⟩ => if err = espOk then some (.uriHandler uri) else none
  | _ => none

/-- Whether it fails, as opposed to what erasing the NVS partition sets right. -/
@[simp] def bootFails : BootEvent workers → Bool
  | ⟨.queueCreate _ _, ok⟩ | ⟨.queueCreateSet _, ok⟩ | ⟨.queueAddToSet _, ok⟩ | ⟨.semaphoreCreateBinary _, ok⟩
  | ⟨.semaphoreCreateCounting _ _, ok⟩ | ⟨.semaphoreCreateMutex _, ok⟩ | ⟨.timerCreate, ok⟩ | ⟨.timerStart, ok⟩
  | ⟨.taskCreatePinnedToCore _, ok⟩ | ⟨.netifCreateDefaultWifiAp, ok⟩ | ⟨.ota .requestQueueCreate, ok⟩
  | ⟨.ota .workerReadyCreate, ok⟩ | ⟨.ota (.timerCreate _), ok⟩ | ⟨.ota (.ota (.timerStart _)), ok⟩ => !ok
  | ⟨.nvsFlashInit erased, err⟩ =>
      err ≠ espOk && (erased || (err ≠ espErrNvsNoFreePages && err ≠ espErrNvsNewVersionFound))
  | ⟨.nvsFlashErase, err⟩ | ⟨.gpioResetPin, err⟩ | ⟨.gpioSetDirection, err⟩ | ⟨.gpioSetLevel _, err⟩
  | ⟨.netifInit, err⟩ | ⟨.eventLoopCreateDefault, err⟩ | ⟨.netifDhcpsStop, err⟩ | ⟨.netifSetIpInfo _, err⟩
  | ⟨.netifDhcpsStart, err⟩ | ⟨.wifiInit, err⟩ | ⟨.eventHandlerInstanceRegister, err⟩ | ⟨.wifiSetMode, err⟩
  | ⟨.wifiSetConfig _, err⟩ | ⟨.wifiStart, err⟩ | ⟨.httpdStart _, err⟩ | ⟨.httpdRegisterUriHandler _, err⟩ =>
      err ≠ espOk
  | ⟨.ota .psaCryptoInit, status⟩ => status ≠ psaSuccess
  | _ => false

/-- The stages before `place` have been completed: their objects and parts are there, the
    confirmation timeout where it is needed, and no call has failed. -/
structure Ready (place : Nat) (progress : Startup.Progress BootObject (BootPart workers)) : Prop where
  created : ∀ object, progress.created object ↔ object.stage.place < place
  started : ∀ part, part ≠ .confirmationTimeout → (progress.started part ↔ part.stage.place < place)
  timeout : progress.started .confirmationTimeout → BootStage.otaUpdateStackInit.place < place
  clear : progress.failed = false

/-- Start-up with the parts that run beside it. It gives up only when something has failed, and
    logs the marker of a normal boot only when everything runs. -/
@[simps] def bootStartup (workers : Nat) : Startup (@BootCall.Reply workers) BootObject (BootPart workers) where
  creates := bootCreates
  starts := bootStarts
  fails := bootFails
  demands progress c :=
    match c with
    | .abort => progress.failed = true
    | .espLogi text => text = appBootNormalMarker → Ready (BootStage.logStreamStartTask.place + 1) progress
    | _ => True
  uses := BootPart.Uses

abbrev bootMonitor : Monitor (@BootCall.Reply workers) (Startup.Progress BootObject (BootPart workers)) :=
  (bootStartup workers).monitor

/-- From the stages before it a function completes its own, or reports a failure. -/
abbrev Completes (stage : BootStage) (program : BootProgram workers EspErr) : Prop :=
  ∀ progress, Ready stage.place progress →
    program.Meets bootMonitor
      (fun after err => if err = espOk then Ready (stage.place + 1) after else after.failed = true) progress

@[simp] theorem espErrorCheck_meets {err : EspErr} {progress : Startup.Progress BootObject (BootPart workers)}
    {post : Startup.Progress BootObject (BootPart workers) → Unit → Prop} :
    (espErrorCheck err).Meets bootMonitor post progress ↔
      if err = espOk then post progress () else progress.failed = true := by
  rw [espErrorCheck]
  split
  · exact Iff.rfl
  · simp

@[simp] theorem espErrNoMem_ne : espErrNoMem ≠ espOk := by decide

@[simp] theorem espFail_ne : espFail ≠ espOk := by decide

theorem BootStage.place_inj {stage other : BootStage} : stage.place = other.place ↔ stage = other := by
  constructor
  · cases stage <;> cases other <;> simp [place]
  · exact congrArg place

theorem Ready.next {stage : BootStage} {progress after : Startup.Progress BootObject (BootPart workers)}
    (ready : Ready stage.place progress)
    (created : ∀ object, after.created object ↔ progress.created object ∨ object.stage = stage)
    (started : ∀ part, part ≠ .confirmationTimeout →
      (after.started part ↔ progress.started part ∨ part.stage = stage))
    (timeout : after.started .confirmationTimeout → progress.started .confirmationTimeout ∨ stage = .otaUpdateStackInit)
    (clear : after.failed = false) : Ready (stage.place + 1) after := by
  constructor
  · intro object
    rw [created, ready.created, ← BootStage.place_inj, Nat.lt_succ_iff_lt_or_eq]
  · intro part other
    rw [started part other, ready.started part other, ← BootStage.place_inj, Nat.lt_succ_iff_lt_or_eq]
  · intro running
    rcases timeout running with before | rfl
    · exact (ready.timeout before).trans (Nat.lt_succ_self _)
    · exact Nat.lt_succ_self _
  · exact clear

theorem gnssObjects_stage {action : GnssAction} {object : BootObject} (member : object ∈ gnssObjects action) :
    object.stage = .gnssStackInit := by
  cases action <;> simp [gnssObjects] at member <;> grind [BootObject.stage]

theorem httpObjects_stage {c : HttpCall workers} {object : BootObject} (member : object ∈ httpObjects c) :
    object.stage = .gnssStackInit ∨ object.stage = .httpStreamStackInit := by
  cases c with
  | gnssOverrideBegin | gnssOverrideFeed | gnssOverrideEnd | gnssPublicationReceive =>
      left
      simp only [httpObjects, List.mem_append] at member
      grind [gnssObjects_stage]
  | _ =>
      right
      simp [httpObjects] at member
      try simp [member, BootObject.stage]

theorem otaObjects_stage {c : OtaCall} {object : BootObject} (member : object ∈ otaObjects c) :
    object.stage = .otaUpdateStackInit := by
  cases c <;> simp [otaObjects] at member <;> simp [member, BootObject.stage]

theorem logObjects_stage {c : LogCall} {object : BootObject} (member : object ∈ logObjects c) :
    object.stage = .logStreamStackInit := by
  cases c <;> simp [logObjects] at member <;> simp [member, BootObject.stage]

theorem wifiObjects_stage {c : WifiCall} {object : BootObject} (member : object ∈ wifiObjects c) :
    object.stage = .wifiApStackInit := by
  cases c <;> simp [wifiObjects] at member <;> simp [member, BootObject.stage]

theorem BootPart.Uses.stage_le {part : BootPart workers} {object : BootObject} (used : part.Uses object) :
    object.stage.place ≤ part.stage.place := by
  cases part with
  | logCaptureVprintf | logWorkerTask =>
      obtain ⟨c, member⟩ := used
      simp [logObjects_stage member, stage, BootStage.place]
  | genericTask =>
      obtain ⟨c, makes, member⟩ := used
      cases c <;> simp [httpObjects] at makes member
  | wifiEventHandler | wifiStackTask =>
      obtain ⟨c, member⟩ := used
      simp [wifiObjects_stage member, stage, BootStage.place]
  | confirmationTimeout | otaWorkerTask =>
      obtain ⟨c, member⟩ := used
      simp [otaObjects_stage member, stage, BootStage.place]
  | uriHandler uri =>
      rcases used with rfl | used
      · exact Nat.le_refl _
      cases uri with
      | http _ =>
          obtain ⟨c, -, member⟩ := used
          rcases httpObjects_stage member with here | here <;> simp [here, stage, BootStage.place]
      | ota _ =>
          obtain ⟨c, member⟩ := used
          simp [otaObjects_stage member, stage, BootStage.place]
      | log =>
          obtain ⟨c, member⟩ := used
          simp [logObjects_stage member, stage, BootStage.place]
  | gnssFilterTask | selectionTimerCallback => simp [gnssObjects_stage used, stage, BootStage.place]
  | gnssInitTask =>
      obtain ⟨action, -, member⟩ := used
      simp [gnssObjects_stage member, stage, BootStage.place]
  | httpStreamWorkerTask | httpWriteWorkerTask | httpStackTask =>
      obtain ⟨c, -, member⟩ := used
      rcases httpObjects_stage member with here | here <;> simp [here, stage, BootStage.place]

/-- No object is created after the functions that set the modules up. -/
theorem BootObject.stage_le (object : BootObject) : object.stage.place ≤ BootStage.httpStreamStackInit.place := by
  cases object <;> simp [stage, BootStage.place]

section

variable {stage : BootStage} {progress : Startup.Progress BootObject (BootPart workers)}

theorem Ready.fresh (ready : Ready stage.place progress) (object : BootObject) (here : object.stage = stage) :
    ¬progress.created object := by
  rw [ready.created, here]
  exact Nat.lt_irrefl _

theorem Ready.unstarted (ready : Ready stage.place progress) (part : BootPart workers) (here : part.stage = stage) :
    ¬progress.started part := by
  intro started
  by_cases confirmation : part = .confirmationTimeout
  · subst confirmation
    have before := ready.timeout started
    rw [← here] at before
    exact Nat.lt_irrefl _ before
  · rw [ready.started part confirmation, here] at started
    exact Nat.lt_irrefl _ started

/-- What a part uses has been created before, or is created by the function that starts it. -/
theorem Ready.provides (ready : Ready stage.place progress) {part : BootPart workers} (here : part.stage = stage)
    {object : BootObject} (used : part.Uses object) : progress.created object ∨ object.stage = stage := by
  rw [ready.created, ← BootStage.place_inj, ← here]
  exact Nat.lt_or_eq_of_le used.stage_le

/-- What neither creates nor starts anything nor fails leaves everything as it is. -/
theorem Ready.quiet {place : Nat} (ready : Ready place progress) (event : BootEvent workers)
    (creates : bootCreates event = none) (starts : bootStarts event = none) (succeeds : bootFails event = false) :
    Ready place (bootMonitor.observe progress event) := by
  constructor
  · simpa [creates, -bootCreates] using ready.created
  · simpa [starts, -bootStarts] using ready.started
  · simpa [starts, -bootStarts] using ready.timeout
  · simpa [succeeds, -bootFails] using ready.clear

end

theorem logStreamStackInit_completes :
    Completes .logStreamStackInit (logStreamStackInit : BootProgram workers EspErr) := by
  intro progress ready
  simp [logStreamStackInit, ready.fresh .logRequestQueue rfl, ready.fresh .logWorkerReady rfl,
    ready.unstarted .logCaptureVprintf rfl, ready.clear]
  constructor
  · intro object used
    rcases ready.provides rfl used with before | here
    · exact .inl (.inl before)
    · cases object <;> simp [BootObject.stage] at here ⊢
  intro _
  apply ready.next
  · intro object
    cases object <;> simp [BootObject.stage]
  · intro part _
    cases part <;> simp [BootPart.stage]
  · simp
  · simp [ready.clear]

theorem initNvs_completes {progress : Startup.Progress BootObject (BootPart workers)}
    (ready : Ready BootStage.initNvs.place progress) :
    initNvs.Meets bootMonitor (fun after _ => Ready (BootStage.initNvs.place + 1) after) progress := by
  have done {after : Startup.Progress BootObject (BootPart workers)} (ready : Ready BootStage.initNvs.place after) :
      Ready (BootStage.initNvs.place + 1) after := by
    apply ready.next
    · intro object
      cases object <;> simp [BootObject.stage]
    · intro part _
      cases part <;> simp [BootPart.stage]
    · exact .inl
    · exact ready.clear
  simp [initNvs, ready.clear]
  intro err
  split
  · rename_i erases
    intro erased
    split
    · intro again
      split
      · apply done
        apply Ready.quiet (Ready.quiet (ready.quiet _ rfl rfl _) _ rfl rfl _) _ rfl rfl _
        all_goals grind [bootFails]
      · grind
    · grind
  · rename_i kept
    split
    · apply done
      apply ready.quiet _ rfl rfl
      grind [bootFails]
    · grind

theorem genericStackInit_completes :
    Completes .genericStackInit (genericStackInit : BootProgram workers EspErr) := by
  intro progress ready
  simp [genericStackInit, ready.clear]
  apply ready.next
  · intro object
    cases object <;> simp [BootObject.stage]
  · intro part _
    cases part <;> simp [BootPart.stage]
  · simp
  · simp [ready.clear]

theorem genericStackStartTask_completes :
    Completes .genericStackStartTask (genericStackStartTask : BootProgram workers EspErr) := by
  intro progress ready
  simp [genericStackStartTask, createdErr, ready.unstarted .genericTask rfl, ready.clear]
  constructor
  · intro object used
    rcases ready.provides rfl used with before | here
    · exact before
    · cases object <;> simp [BootObject.stage] at here
  apply ready.next
  · intro object
    cases object <;> simp [BootObject.stage]
  · intro part _
    cases part <;> simp [BootPart.stage]
  · simp
  · simp [ready.clear]

theorem wifiApStackInit_completes (config : BootConfig) :
    Completes .wifiApStackInit (wifiApStackInit config : BootProgram workers EspErr) := by
  intro progress ready
  simp [wifiApStackInit, setSoftapIp, ready.fresh .wifiEventQueue rfl, ready.unstarted .wifiEventHandler rfl,
    ready.clear]
  constructor
  · intro object used
    rcases ready.provides rfl used with before | here
    · exact .inl before
    · cases object <;> simp [BootObject.stage] at here ⊢
  apply ready.next
  · intro object
    cases object <;> simp [BootObject.stage]
  · intro part _
    cases part <;> simp [BootPart.stage]
  · simp
  · simp [ready.clear]

theorem gnssStackInit_completes : Completes .gnssStackInit (gnssStackInit : BootProgram workers EspErr) := by
  intro progress ready
  simp [-Bool.forall_bool, gnssStackInit, gnssObjectsCreate, filterQueuesAdd, ready.created, ready.clear,
    BootObject.stage]
  intro candidateQueue timerEventQueue filterControlQueue publicationQueue filterQueueSet parserMutex overrideFlushDone
  split
  · rename_i there
    simp [there]
    apply ready.next
    · intro object
      cases object with
      | filterQueue member | filterQueueInSet member => cases member <;> simp [BootObject.stage]
      | _ => simp [BootObject.stage]
    · intro part _
      cases part <;> simp [BootPart.stage]
    · simp
    · simp [ready.clear]
  · grind

/-- Shows start-up's monitor the calls of `ota_update_stack_init`. -/
@[simps] def otaMonitor : Monitor OtaInitCall.Reply (Startup.Progress BootObject (BootPart workers)) where
  allows progress c := (bootMonitor : Monitor (@BootCall.Reply workers) _).allows progress (.ota c)
  observe progress event := bootMonitor.observe progress ⟨.ota event.call, event.reply⟩

/-- The confirmation timeout may start or not. -/
theorem Ready.confirmation {place : Nat} {progress : Startup.Progress BootObject (BootPart workers)}
    (ready : Ready place progress) (later : BootStage.otaUpdateStackInit.place < place) :
    Ready place (bootMonitor.observe progress ⟨.ota (.ota (.timerStart .confirmation)), true⟩) := by
  constructor
  · simpa using ready.created
  · intro part other
    simpa [other.symm] using ready.started part other
  · exact fun _ => later
  · simpa using ready.clear

theorem otaUpdateStackInit_completes :
    Completes .otaUpdateStackInit (otaUpdateStackInit : BootProgram workers EspErr) := by
  intro progress ready
  apply CallTree.Meets.handle (m := otaMonitor)
  · intro progress c allowed
    exact ⟨allowed, fun _ => rfl⟩
  simp [-Bool.forall_bool, Ota.otaUpdateStackInit, ready.created, ready.clear, BootObject.stage]
  intro requestQueue workerReady restartTimer confirmationTimer requestQueueThere workerReadyThere
    restartTimerThere confirmationTimerThere psaStatus
  simp only [requestQueueThere, workerReadyThere, restartTimerThere, confirmationTimerThere]
  split
  · rename_i psaReady
    intro running
    -- by now everything is there
    have there : Ready (BootStage.otaUpdateStackInit.place + 1) (bootMonitor.observe (bootMonitor.observe
        (bootMonitor.observe (bootMonitor.observe (bootMonitor.observe (bootMonitor.observe progress
          ⟨.ota .requestQueueCreate, true⟩) ⟨.ota .workerReadyCreate, true⟩) ⟨.ota (.timerCreate .restart), true⟩)
          ⟨.ota (.timerCreate .confirmation), true⟩) ⟨.ota .psaCryptoInit, psaStatus⟩)
          ⟨.ota (.ota .otaGetRunningPartition), running⟩) := by
      apply ready.next
      · intro object
        cases object with
        | otaTimer timer => cases timer <;> simp [BootObject.stage]
        | _ => simp [BootObject.stage]
      · intro part _
        cases part <;> simp_all [BootPart.stage]
      · simp
      · simp [ready.clear, psaReady]
    cases running with
    | none => exact there
    | some running =>
        subst psaReady
        simp [ready.clear, ready.unstarted .confirmationTimeout rfl]
        intro state
        split
        · intro _
          constructor
          · intro object used
            rcases ready.provides rfl used with before | here
            · simp [before]
            · cases object with
              | otaTimer timer => cases timer <;> simp
              | _ => simp [BootObject.stage] at here ⊢
          · apply Ready.confirmation
            · exact (there.quiet _ rfl rfl rfl).quiet _ rfl rfl rfl
            · exact Nat.lt_succ_self _
        · exact there.quiet _ rfl rfl rfl
  · exact .inr ‹_›

/-- That a program started these parts and changed nothing else of importance. -/
structure Started (progress : Startup.Progress BootObject (BootPart workers)) (parts : List (BootPart workers))
    (after : Startup.Progress BootObject (BootPart workers)) : Prop where
  created : ∀ object, after.created object ↔ progress.created object
  started : ∀ part, after.started part ↔ progress.started part ∨ part ∈ parts
  failed : after.failed = progress.failed

theorem Started.nil {progress : Startup.Progress BootObject (BootPart workers)} : Started progress [] progress :=
  ⟨by simp, by simp, rfl⟩

theorem uriHandlersRegister_meets {uris : List BootUri} {progress : Startup.Progress BootObject (BootPart workers)}
    (nodup : uris.Nodup) (fresh : ∀ uri ∈ uris, ¬progress.started (.uriHandler uri)) (clear : progress.failed = false)
    (provided : ∀ object, progress.created object) {post : Startup.Progress BootObject (BootPart workers) → Unit → Prop}
    (ends : ∀ after, Started progress (uris.map .uriHandler) after → post after ()) :
    (uriHandlersRegister uris).Meets bootMonitor post progress := by
  induction uris generalizing progress with
  | nil => exact ends progress .nil
  | cons uri rest ih =>
      obtain ⟨other, nodup⟩ := List.nodup_cons.mp nodup
      simp [uriHandlersRegister, clear, provided, fresh]
      apply ih nodup
      · intro later member
        simp [fresh later (List.mem_cons_of_mem _ member)]
        rintro rfl
        exact other member
      · simp [clear]
      · simp [provided]
      intro after started
      apply ends
      constructor
      · intro object
        simp [started.created]
      · intro part
        simp [started.started]
        grind
      · simp [started.failed]

theorem httpStreamStackInit_completes :
    Completes .httpStreamStackInit (httpStreamStackInit : BootProgram workers EspErr) := by
  intro progress ready
  simp [-Bool.forall_bool, httpStreamStackInit, httpObjectsCreate, ready.created, ready.clear, BootObject.stage]
  intro requestQueue writeRequestQueue workerReady writeWorkerReady latestMutex
  split
  swap
  · grind
  rename_i there
  simp only [there]
  intro err
  split
  swap
  · exact .inr ‹_›
  rename_i server
  subst server
  -- the server is the last of the objects that start-up creates
  have provided (object : BootObject) : (((((progress.created object ∨ .httpRequestQueue .stream = object) ∨
      .httpRequestQueue .write = object) ∨ .httpWorkerReady .stream = object) ∨ .httpWorkerReady .write = object) ∨
        .latestMutex = object) ∨ .httpServer = object := by
    rcases Nat.lt_or_eq_of_le object.stage_le with before | here
    · simp [(ready.created object).mpr before]
    · rw [BootStage.place_inj] at here
      cases object with
      | httpRequestQueue pool | httpWorkerReady pool => cases pool <;> simp
      | _ => simp [BootObject.stage] at here ⊢
  apply uriHandlersRegister_meets
  · decide
  · simp [ready.unstarted (.uriHandler _) rfl]
  · simp [ready.clear]
  · simpa using provided
  intro registered streams
  simp only [otaUpdateRegisterHttpHandlers, CallTree.meets_bind]
  apply uriHandlersRegister_meets
  · decide
  · simp [streams.started, ready.unstarted (.uriHandler _) rfl]
  · simp [streams.failed, ready.clear]
  · simpa [streams.created] using provided
  intro complete updates
  simp
  constructor
  · simp [updates.started, updates.created, updates.failed, streams.started, streams.created, streams.failed,
      ready.clear, ready.unstarted (.uriHandler _) rfl]
    intro object _
    exact provided object
  intro err
  simp
  split
  swap
  · exact .inr ‹_›
  rename_i registers
  subst registers
  apply ready.next
  · intro object
    apply iff_of_true
    · simpa [updates.created, streams.created] using provided object
    · rw [ready.created, ← BootStage.place_inj]
      exact Nat.lt_or_eq_of_le object.stage_le
  · intro part _
    cases part with
    | uriHandler uri =>
        rcases uri with uri | uri | _
        · cases uri <;> simp [updates.started, streams.started, BootPart.stage]
        · cases uri <;> simp [updates.started, streams.started, BootPart.stage]
        · simp [updates.started, streams.started, BootPart.stage]
    | _ => simp [updates.started, streams.started, BootPart.stage]
  · simp [updates.started, streams.started]
  · simp [updates.failed, streams.failed, ready.clear]

/-- From here on all objects are there. -/
theorem Ready.provided {place : Nat} {progress : Startup.Progress BootObject (BootPart workers)}
    (ready : Ready place progress) (late : BootStage.httpStreamStackInit.place < place) (object : BootObject) :
    progress.created object := by
  rw [ready.created]
  exact object.stage_le.trans_lt late

theorem taskStart_completes {stage : BootStage} {task : BootPart workers}
    (late : BootStage.httpStreamStackInit.place < stage.place) (own : ∀ part : BootPart workers, part.stage = stage ↔ part = task) :
    Completes stage (do
      let created ← call (.taskCreatePinnedToCore task)
      return createdErr created) := by
  intro progress ready
  have provided := ready.provided late
  simp [createdErr, ready.clear, ready.unstarted task ((own task).mpr rfl), provided]
  apply ready.next
  · intro object
    simp [provided]
  · intro part _
    simp [own, eq_comm]
  · intro running
    rcases running with before | now
    · exact .inl before
    · cases now
      exact .inr ((own _).mpr rfl).symm
  · simp [ready.clear]

theorem otaUpdateStartTask_completes :
    Completes .otaUpdateStartTask (otaUpdateStartTask : BootProgram workers EspErr) := by
  apply taskStart_completes
  · decide
  · intro part
    cases part <;> simp [BootPart.stage]

theorem wifiApStartTask_completes : Completes .wifiApStartTask (wifiApStartTask : BootProgram workers EspErr) := by
  apply taskStart_completes
  · decide
  · intro part
    cases part <;> simp [BootPart.stage]

theorem gnssStackStartTasks_completes :
    Completes .gnssStackStartTasks (gnssStackStartTasks : BootProgram workers EspErr) := by
  intro progress ready
  have provided := ready.provided (by decide)
  simp [gnssStackStartTasks, ready.clear, provided, ready.unstarted .gnssFilterTask rfl,
    ready.unstarted .selectionTimerCallback rfl, ready.unstarted .gnssInitTask rfl]
  apply ready.next
  · intro object
    simp [provided]
  · intro part _
    cases part <;> simp [BootPart.stage]
  · simp
  · simp [ready.clear]

theorem streamWorkersCreate_meets {indices : List (Fin workers)} {progress : Startup.Progress BootObject (BootPart workers)}
    (nodup : indices.Nodup) (fresh : ∀ index ∈ indices, ¬progress.started (.httpStreamWorkerTask index))
    (clear : progress.failed = false) (provided : ∀ object, progress.created object) :
    (streamWorkersCreate indices).Meets bootMonitor (fun after created =>
      if created then Started progress (indices.map .httpStreamWorkerTask) after else after.failed = true) progress := by
  induction indices generalizing progress with
  | nil => exact .nil
  | cons index rest ih =>
      obtain ⟨other, nodup⟩ := List.nodup_cons.mp nodup
      simp [streamWorkersCreate, clear, provided, fresh]
      apply (ih nodup _ _ _).mono
      · intro after created started
        cases created with
        | false => exact started
        | true =>
            simp at started ⊢
            constructor
            · intro object
              simp [started.created]
            · intro part
              simp [started.started]
              grind
            · simp [started.failed]
      · intro later member
        simp [fresh later (List.mem_cons_of_mem _ member)]
        rintro rfl
        exact other member
      · simp [clear]
      · simp [provided]

theorem httpStreamStartTasks_completes :
    Completes .httpStreamStartTasks (httpStreamStartTasks : BootProgram workers EspErr) := by
  intro progress ready
  have provided := ready.provided (by decide)
  simp only [httpStreamStartTasks, CallTree.meets_bind]
  apply (streamWorkersCreate_meets (List.nodup_finRange workers) _ ready.clear provided).mono
  · intro after created started
    cases created with
    | false => simpa using started
    | true =>
        simp at started
        simp [createdErr, started.failed, started.started, started.created, ready.clear, provided,
          ready.unstarted .httpWriteWorkerTask rfl, ready.unstarted .httpStackTask rfl]
        apply ready.next
        · intro object
          simp [provided, started.created]
        · intro part _
          cases part <;> simp [BootPart.stage, started.started]
        · simp [started.started]
        · simp [ready.clear, started.failed]
  · intro index _
    exact ready.unstarted _ rfl

theorem logStreamStartTask_completes :
    Completes .logStreamStartTask (logStreamStartTask : BootProgram workers EspErr) := by
  apply taskStart_completes
  · decide
  · intro part
    cases part <;> simp [BootPart.stage]

theorem checked_meets {stage : BootStage} {program : BootProgram workers EspErr} (completes : Completes stage program)
    {progress : Startup.Progress BootObject (BootPart workers)} (ready : Ready stage.place progress) :
    (checked program).Meets bootMonitor (fun after _ => Ready (stage.place + 1) after) progress := by
  simp only [checked, CallTree.meets_bind]
  apply (completes progress ready).mono
  intro after err ended
  simpa using ended

/-- Start-up completes its stages one after the other. -/
theorem appMain_meets (config : BootConfig) :
    (appMain config : BootProgram workers Unit).Meets bootMonitor
      (fun after _ => Ready (BootStage.logStreamStartTask.place + 1) after) .none := by
  have first : Ready BootStage.logStreamStackInit.place (.none : Startup.Progress BootObject (BootPart workers)) := by
    constructor <;> simp [Startup.Progress.none, BootStage.place]
  simp only [appMain, CallTree.meets_bind]
  apply (checked_meets logStreamStackInit_completes first).mono
  intro _ _ ready
  apply (initNvs_completes ready).mono
  intro _ _ ready
  apply (checked_meets genericStackInit_completes ready).mono
  intro _ _ ready
  apply (checked_meets genericStackStartTask_completes ready).mono
  intro _ _ ready
  apply (checked_meets (wifiApStackInit_completes config) ready).mono
  intro _ _ ready
  apply (checked_meets gnssStackInit_completes ready).mono
  intro _ _ ready
  apply (checked_meets otaUpdateStackInit_completes ready).mono
  intro _ _ ready
  apply (checked_meets httpStreamStackInit_completes ready).mono
  intro _ _ ready
  apply (checked_meets otaUpdateStartTask_completes ready).mono
  intro _ _ ready
  apply (checked_meets wifiApStartTask_completes ready).mono
  intro _ _ ready
  apply (checked_meets gnssStackStartTasks_completes ready).mono
  intro _ _ ready
  apply (checked_meets httpStreamStartTasks_completes ready).mono
  intro _ _ ready
  apply (checked_meets logStreamStartTask_completes ready).mono
  intro progress _ ready
  simp
  intro version
  have versioned := ready.quiet ⟨.appVersionString, version⟩ rfl rfl rfl
  constructor
  · exact fun _ => versioned
  intro _
  have logged := versioned.quiet ⟨.espLogi ("version:" ++ version), ()⟩ rfl rfl rfl
  exact ⟨logged, fun _ => logged.quiet _ rfl rfl rfl⟩

end EspGnss.Boot
