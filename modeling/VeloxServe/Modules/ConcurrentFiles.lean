import VeloxServe.Modules.StaticFreshness

/-! # Files Served by Many Workers

    `StaticHandler::handle` as it runs in the thread pool: a call gives up the
    processor between its `stat` calls, its reading of the file and its two
    calls of the cache, and other calls or changes of the files come in between.
    Only `get` and `put` hold the mutex of the cache.

    * **Phases**: one step of a call is one access to the file system or the
      cache; the steps of a call that is left alone are `handle`.
    * **Origin**: whatever the schedule, a body is what some call read from the
      file after it had found it, and one from the cache was put there not long ago.
    * **Transparency**: as long as the files do not change, neither the cache nor
      the other workers can be seen in a response.
-/

namespace VeloxServe

open StdString Message LTS

namespace StaticHandler

/-! ## Section 1: Model -/

/-- Where a call of `handle` has come to. -/
inductive Phase where
  | started
  /-- Before `cache->get`. -/
  | looking (fsPath : Bytes)
  /-- Before `file_exists`. -/
  | checking (fsPath : Bytes)
  /-- Before `read_file`. -/
  | opening (fsPath : Bytes)
  /-- Before `cache->put`. -/
  | putting (fsPath content : Bytes)
  /-- With the time of its last step. -/
  | answered (response : HttpResponse) (now : Time)

/-- A call of `handle` by a worker. -/
structure FileTask where
  request : HttpRequest
  rootDir : Bytes
  indexFile : Bytes
  phase : Phase := .started

/-- What a call has asked the file system, and the files as they were then. -/
inductive FileAccess where
  /-- `file_exists` -/
  | check (call : Nat) (fsPath : Bytes) (fs : FileSystem)
  /-- `read_file` -/
  | read (call : Nat) (fsPath : Bytes) (fs : FileSystem)

/-- Who has called `cache->put`, with which arguments, and when. -/
structure FilePut where
  call : Nat
  key : Bytes
  data : Bytes
  now : Time
  deriving DecidableEq

/-- What has happened so far. -/
structure FileHistory where
  /-- The file systems there have been. -/
  past : List FileSystem
  accesses : List FileAccess := []
  puts : List FilePut := []

structure FileServer extends FileHistory where
  fs : FileSystem
  cache : LRUCache
  tasks : List FileTask

inductive FileLabel where
  | advance (task : Nat) (now : Time)
  | change (fs : FileSystem)

/-- What a step of a call leaves behind. -/
structure CallStep where
  phase : Phase
  cache : LRUCache
  accesses : List FileAccess := []
  puts : List FilePut := []

/-- One step of a call. -/
def advance (fs : FileSystem) (now : Time) (call : Nat) (task : FileTask) (c : LRUCache) :
    Option CallStep :=
  match task.phase with
  | .started =>
    let safePath := sanitizePath task.request.path
    if safePath = [] then
      some ⟨.answered (HttpResponse.forbidden (bytes "403 Forbidden — Path traversal blocked")) now,
        c, [], []⟩
    else
      let fsPath := task.rootDir ++ safePath
      if fs.isDirectory fsPath then
        if task.request.path.getLast? ≠ some 47 then
          some ⟨.answered (HttpResponse.redirect (task.request.path ++ bytes "/")) now, c, [], []⟩
        else some ⟨.looking (fsPath ++ bytes "/" ++ task.indexFile), c, [], []⟩
      else some ⟨.looking fsPath, c, [], []⟩
  | .looking fsPath =>
    match c.get fsPath now with
    | (some cached, c) =>
      some ⟨.answered (fileResponse cached.contentType (bytes "HIT") cached.data) now, c, [], []⟩
    | (none, c) => some ⟨.checking fsPath, c, [], []⟩
  | .checking fsPath =>
    if !fs.fileExists fsPath then
      some ⟨.answered (HttpResponse.notFound []) now, c, [.check call fsPath fs], []⟩
    else some ⟨.opening fsPath, c, [.check call fsPath fs], []⟩
  | .opening fsPath =>
    match fs.readFile fsPath with
    | none =>
      some ⟨.answered (HttpResponse.internalError (bytes "500 Internal Server Error")) now, c,
        [.read call fsPath fs], []⟩
    | some content => some ⟨.putting fsPath content, c, [.read call fsPath fs], []⟩
  | .putting fsPath content =>
    let mime := getMimeType fsPath
    some ⟨.answered (fileResponse mime (bytes "MISS") content) now, c.put fsPath content mime now,
      [], [⟨call, fsPath, content, now⟩]⟩
  | .answered _ _ => none

def FileHistory.append (history : FileHistory) (next : CallStep) : FileHistory :=
  { history with
    accesses := history.accesses ++ next.accesses
    puts := history.puts ++ next.puts }

/-- The state after a step of call `i`. -/
def FileServer.moved (s : FileServer) (i : Nat) (task : FileTask) (next : CallStep) : FileServer :=
  { s with
    toFileHistory := s.toFileHistory.append next
    tasks := s.tasks.set i { task with phase := next.phase }
    cache := next.cache }

def fileStep (s : FileServer) : FileLabel → Option FileServer
  | .advance i now =>
    match s.tasks[i]? with
    | none => none
    | some task => (advance s.fs now i task s.cache).map (s.moved i task)
  | .change fs => some { s with fs := fs, past := s.past ++ [fs] }

/-- Any number of calls on a new cache. -/
def fileSystem (maxSizeBytes : Nat) (ttlSeconds : Int) : System FileServer FileLabel :=
  System.ofStep (fun s => ∃ fs calls, (∀ task ∈ calls, task.phase = .started) ∧
    s = { fs := fs
          cache := LRUCache.create maxSizeBytes ttlSeconds
          tasks := calls
          past := [fs] }) fileStep

/-! ## Section 2: A Call That Is Left Alone -/

/-- Call `i` can run to its end by itself, and does to response and cache what `h` says. -/
def RunsTo (maxSizeBytes : Nat) (ttlSeconds : Int) (s : FileServer) (i : Nat) (task : FileTask)
    (h : Handled) : Prop :=
  ∃ (times : List Time) (s' : FileServer) (now : Time), Run (fileSystem maxSizeBytes ttlSeconds) s
      (times.map fun t => FileLabel.advance i t) s' ∧
    s'.tasks[i]? = some { task with phase := .answered h.response now } ∧ some s'.cache = h.cache

section

variable {maxSizeBytes : Nat} {ttlSeconds : Int} {s : FileServer} {i : Nat} {task : FileTask}
  {now : Time} {c : LRUCache}

theorem moved_tasks (here : s.tasks[i]? = some task) (next : CallStep) :
    (s.moved i task next).tasks[i]? = some { task with phase := next.phase } := by
  obtain ⟨hlt, -⟩ := List.getElem?_eq_some_iff.mp here
  exact List.getElem?_set_self hlt

theorem step_advance (here : s.tasks[i]? = some task) {next : CallStep}
    (hnext : advance s.fs now i task s.cache = some next) :
    (fileSystem maxSizeBytes ttlSeconds).step s (.advance i now) (s.moved i task next) := by
  show fileStep s (.advance i now) = _
  unfold fileStep
  dsimp only
  rw [here]
  dsimp only
  rw [hnext]
  rfl

theorem RunsTo.last (now : Time) (as : List FileAccess) (ws : List FilePut)
    (here : s.tasks[i]? = some task) {response : HttpResponse} {pathnames : List Bytes}
    (hnext : advance s.fs now i task s.cache = some ⟨.answered response now, c, as, ws⟩) :
    RunsTo maxSizeBytes ttlSeconds s i task ⟨response, some c, pathnames⟩ :=
  ⟨[now], _, now, Run.single (step_advance here hnext), moved_tasks here _, rfl⟩

theorem RunsTo.cons (here : s.tasks[i]? = some task) {next : CallStep} {h : Handled}
    (hnext : advance s.fs now i task s.cache = some next)
    (hrest : RunsTo maxSizeBytes ttlSeconds (s.moved i task next) i
      { task with phase := next.phase } h) : RunsTo maxSizeBytes ttlSeconds s i task h := by
  obtain ⟨times, s', last, hrun, hend, hcache⟩ := hrest
  exact ⟨now :: times, s', last, Run.cons (step_advance here hnext) hrun, hend, hcache⟩

/-- Steps 5 to 7 of `handle`. -/
theorem runsTo_serveFromDisk (putTime : Time) {fsPath : Bytes} (here : s.tasks[i]? = some task)
    (hphase : task.phase = .checking fsPath) :
    RunsTo maxSizeBytes ttlSeconds s i task (serveFromDisk s.fs putTime fsPath (some s.cache)) := by
  unfold serveFromDisk
  split
  · next hmissing =>
    refine .last putTime [.check i fsPath s.fs] [] here ?_
    unfold advance
    rw [hphase]
    exact if_pos hmissing
  · next hexists =>
    have hopening : advance s.fs putTime i task s.cache =
        some ⟨.opening fsPath, s.cache, [.check i fsPath s.fs], []⟩ := by
      unfold advance
      rw [hphase]
      exact if_neg hexists
    refine .cons here hopening ?_
    have here' := moved_tasks here ⟨.opening fsPath, s.cache, [.check i fsPath s.fs], []⟩
    cases hread : s.fs.readFile fsPath with
    | none =>
      refine .last putTime [.read i fsPath s.fs] [] here' ?_
      unfold advance
      dsimp only [FileServer.moved]
      rw [hread]
    | some content =>
      have hputting : advance s.fs putTime i { task with phase := .opening fsPath } s.cache =
          some ⟨.putting fsPath content, s.cache, [.read i fsPath s.fs], []⟩ := by
        unfold advance
        dsimp only
        rw [hread]
      refine .cons here' hputting ?_
      exact .last putTime [] _ (moved_tasks here' ⟨.putting fsPath content, s.cache, _, []⟩) rfl

/-- Steps 4 to 7. -/
theorem runsTo_serveFile (getTime putTime : Time) {fsPath : Bytes}
    (here : s.tasks[i]? = some task) (hphase : task.phase = .looking fsPath) :
    RunsTo maxSizeBytes ttlSeconds s i task
      (serveFile s.fs getTime putTime fsPath (some s.cache)) := by
  unfold serveFile
  dsimp only
  rcases hget : s.cache.get fsPath getTime with ⟨_ | cached, c⟩
  · have hchecking : advance s.fs getTime i task s.cache = some ⟨.checking fsPath, c, [], []⟩ := by
      unfold advance
      rw [hphase]
      dsimp only
      rw [hget]
    exact .cons here hchecking (runsTo_serveFromDisk putTime (moved_tasks here ⟨_, c, [], []⟩) rfl)
  · refine .last getTime [] [] here ?_
    unfold advance
    rw [hphase]
    dsimp only
    rw [hget]

/-- **Phases**: the steps of a call that is left alone do what `handle` does. -/
theorem runsTo_handle (getTime putTime : Time) (here : s.tasks[i]? = some task)
    (hphase : task.phase = .started) :
    RunsTo maxSizeBytes ttlSeconds s i task
      (handle s.fs getTime putTime task.request task.rootDir task.indexFile (some s.cache)) := by
  unfold handle
  dsimp only
  split
  · next hblocked =>
    refine .last getTime [] [] here ?_
    unfold advance
    rw [hphase]
    exact if_pos hblocked
  · next hsafe =>
    split
    · next hdir =>
      split
      · next hslash =>
        refine .last getTime [] [] here ?_
        unfold advance
        rw [hphase]
        dsimp only
        rw [if_neg hsafe, if_pos hdir, if_pos hslash]
      · next hslash =>
        -- a directory is served by its index file
        have hlooking : advance s.fs getTime i task s.cache = some ⟨.looking
            (task.rootDir ++ sanitizePath task.request.path ++ bytes "/" ++ task.indexFile),
            s.cache, [], []⟩ := by
          unfold advance
          rw [hphase]
          dsimp only
          rw [if_neg hsafe, if_pos hdir, if_neg hslash]
        refine .cons here hlooking ?_
        exact runsTo_serveFile getTime putTime (moved_tasks here ⟨_, s.cache, [], []⟩) rfl
    · next hfile =>
      have hlooking : advance s.fs getTime i task s.cache = some ⟨.looking
          (task.rootDir ++ sanitizePath task.request.path), s.cache, [], []⟩ := by
        unfold advance
        rw [hphase]
        dsimp only
        rw [if_neg hsafe, if_neg hfile]
      refine .cons here hlooking ?_
      exact runsTo_serveFile getTime putTime (moved_tasks here ⟨_, s.cache, [], []⟩) rfl

end

/-! ## Section 3: Where Responses Come From -/

/-- Some file system so far has the property. -/
def Once (past : List FileSystem) (P : FileSystem → Prop) : Prop := ∃ fs ∈ past, P fs

/-- The call has found the file there. -/
def FoundBy (history : FileHistory) (call : Nat) (fsPath : Bytes) : Prop :=
  Once history.past fun fs =>
    .check call fsPath fs ∈ history.accesses ∧ fs.fileExists fsPath = true

/-- The call has read this from the file. -/
def ReadBy (history : FileHistory) (call : Nat) (fsPath content : Bytes) : Prop :=
  Once history.past fun fs =>
    .read call fsPath fs ∈ history.accesses ∧ fs.readFile fsPath = some content

/-- What `cache->put` has been called with was read from a file. -/
def WasFile (history : FileHistory) (w : FilePut) : Prop :=
  FoundBy history w.call w.key ∧ ReadBy history w.call w.key w.data

/-- The pathname was the one to serve. -/
def Chosen (past : List FileSystem) (task : FileTask) (fsPath : Bytes) : Prop :=
  Once past fun fs => servedPath fs task.rootDir task.indexFile task.request.path = some fsPath

/-- What was put then comes from the call itself, or has been in the cache for no longer
    than its lifetime. -/
def Fresh (ttlSeconds : Int) (call : Nat) (now : Time) (source : Nat) (created : Time) : Prop :=
  source = call ∧ created = now ∨ now - created < (ttlSeconds + 1) * 1000000000

/-- How a call has come to its response. -/
inductive AnswerSound (ttlSeconds : Int) (history : FileHistory) (call : Nat) (task : FileTask)
    (now : Time) : HttpResponse → Prop where
  | elsewhere (response : HttpResponse) (hstatus : response.statusCode ≠ 200)
      (hplain : Once history.past fun fs => ∀ getTime putTime, (handle fs getTime putTime
        task.request task.rootDir task.indexFile none).response = response) :
      AnswerSound ttlSeconds history call task now response
  | missing (fsPath : Bytes) (hpath : Chosen history.past task fsPath)
      (hmissing : Once history.past fun fs => fs.fileExists fsPath = false) :
      AnswerSound ttlSeconds history call task now (HttpResponse.notFound [])
  | unreadable (fsPath : Bytes) (hpath : Chosen history.past task fsPath)
      (hfound : FoundBy history call fsPath)
      (hread : Once history.past fun fs => fs.readFile fsPath = none) :
      AnswerSound ttlSeconds history call task now
        (HttpResponse.internalError (bytes "500 Internal Server Error"))
  | file (fsPath content xCache : Bytes) (source : Nat) (created : Time)
      (hpath : Chosen history.past task fsPath)
      (hput : ⟨source, fsPath, content, created⟩ ∈ history.puts)
      (hfresh : Fresh ttlSeconds call now source created) :
      AnswerSound ttlSeconds history call task now
        (fileResponse (getMimeType fsPath) xCache content)

/-- What a call has found out so far. -/
def TaskSound (ttlSeconds : Int) (history : FileHistory) (call : Nat) (task : FileTask) : Prop :=
  match task.phase with
  | .started => True
  | .looking fsPath => Chosen history.past task fsPath
  | .checking fsPath => Chosen history.past task fsPath
  | .opening fsPath => Chosen history.past task fsPath ∧ FoundBy history call fsPath
  | .putting fsPath content => Chosen history.past task fsPath ∧
      FoundBy history call fsPath ∧ ReadBy history call fsPath content
  | .answered response now => AnswerSound ttlSeconds history call task now response

/-- An entry is a file that has been put. -/
def FromPut (puts : List FilePut) (key data contentType : Bytes) (created : Time) : Prop :=
  contentType = getMimeType key ∧ ∃ source, ⟨source, key, data, created⟩ ∈ puts

/-- **Invariant**: every call, every entry of the cache and everything on its way into the
    cache comes from the files. -/
structure FilesSound (ttlSeconds : Int) (s : FileServer) : Prop where
  current : s.fs ∈ s.past
  ttl : s.cache.ttlSeconds = ttlSeconds
  stores : s.cache.Stores (FromPut s.puts)
  puts : ∀ w ∈ s.puts, WasFile s.toFileHistory w
  tasks : ∀ i task, s.tasks[i]? = some task → TaskSound ttlSeconds s.toFileHistory i task

/-- Nothing that has happened is undone. -/
structure FileHistory.Extends (history' history : FileHistory) : Prop where
  past : history.past ⊆ history'.past
  accesses : history.accesses ⊆ history'.accesses
  puts : history.puts ⊆ history'.puts

theorem FileHistory.extends_append (history : FileHistory) (next : CallStep) :
    (history.append next).Extends history where
  past := List.Subset.refl _
  accesses := List.subset_append_left _ _
  puts := List.subset_append_left _ _

section

variable {ttlSeconds : Int} {history history' : FileHistory} {call : Nat} {task : FileTask}

theorem Once.mono {past past' : List FileSystem} {P : FileSystem → Prop} (h : Once past P)
    (hpast : past ⊆ past') : Once past' P := by
  obtain ⟨fs, hmem, hfs⟩ := h
  exact ⟨fs, hpast hmem, hfs⟩

theorem FoundBy.mono {fsPath : Bytes} (h : FoundBy history call fsPath)
    (hext : history'.Extends history) : FoundBy history' call fsPath := by
  obtain ⟨fs, hmem, haccess, hexists⟩ := h
  exact ⟨fs, hext.past hmem, hext.accesses haccess, hexists⟩

theorem ReadBy.mono {fsPath content : Bytes} (h : ReadBy history call fsPath content)
    (hext : history'.Extends history) : ReadBy history' call fsPath content := by
  obtain ⟨fs, hmem, haccess, hread⟩ := h
  exact ⟨fs, hext.past hmem, hext.accesses haccess, hread⟩

theorem AnswerSound.mono {now : Time} {response : HttpResponse}
    (h : AnswerSound ttlSeconds history call task now response)
    (hext : history'.Extends history) : AnswerSound ttlSeconds history' call task now response := by
  cases h with
  | elsewhere response hstatus hplain => exact .elsewhere _ hstatus (hplain.mono hext.past)
  | missing fsPath hpath hmissing =>
    exact .missing fsPath (hpath.mono hext.past) (hmissing.mono hext.past)
  | unreadable fsPath hpath hfound hread =>
    exact .unreadable fsPath (hpath.mono hext.past) (hfound.mono hext) (hread.mono hext.past)
  | file fsPath content xCache source created hpath hput hfresh =>
    exact .file fsPath content xCache source created (hpath.mono hext.past) (hext.puts hput) hfresh

theorem TaskSound.mono (h : TaskSound ttlSeconds history call task)
    (hext : history'.Extends history) : TaskSound ttlSeconds history' call task := by
  unfold TaskSound at h ⊢
  split at h
  · exact trivial
  · exact h.mono hext.past
  · exact h.mono hext.past
  · exact ⟨h.1.mono hext.past, h.2.mono hext⟩
  · exact ⟨h.1.mono hext.past, h.2.1.mono hext, h.2.2.mono hext⟩
  · exact h.mono hext

theorem filesSound_init {maxSizeBytes : Nat} {s : FileServer}
    (h : (fileSystem maxSizeBytes ttlSeconds).init s) : FilesSound ttlSeconds s := by
  obtain ⟨fs, calls, hstarted, rfl⟩ := h
  refine ⟨List.mem_singleton_self fs, rfl, LRUCache.Stores.create _ _, fun w hw => ?_,
    fun i task htask => ?_⟩
  · cases hw
  · unfold TaskSound
    rw [hstarted task (List.mem_of_getElem? htask)]
    trivial

/-- What one step of a call keeps and finds out. -/
structure StepSound (ttlSeconds : Int) (history : FileHistory) (call : Nat) (task : FileTask)
    (next : CallStep) : Prop where
  ttl : next.cache.ttlSeconds = ttlSeconds
  stores : next.cache.Stores (FromPut (history.append next).puts)
  wasFile : ∀ w ∈ next.puts, WasFile history w
  task : TaskSound ttlSeconds (history.append next) call { task with phase := next.phase }

variable {fs : FileSystem} {c : LRUCache} {now : Time}

/-- A step that puts nothing into the cache. -/
theorem StepSound.aside (httl : c.ttlSeconds = ttlSeconds)
    (hstores : c.Stores (FromPut history.puts)) {phase : Phase} {as : List FileAccess}
    (htask : TaskSound ttlSeconds (history.append ⟨phase, c, as, []⟩) call
      { task with phase := phase }) :
    StepSound ttlSeconds history call task ⟨phase, c, as, []⟩ := by
  refine ⟨httl, ?_, fun w hw => ?_, htask⟩
  · show c.Stores (FromPut (history.puts ++ []))
    rw [List.append_nil]
    exact hstores
  · cases hw

/-! A step of one call, by its phase. -/

section

variable {next : CallStep} (hfs : fs ∈ history.past) (httl : c.ttlSeconds = ttlSeconds)
  (hstores : c.Stores (FromPut history.puts)) (hnext : advance fs now call task c = some next)

include hfs httl hstores hnext

theorem stepSound_started (hphase : task.phase = .started) :
    StepSound ttlSeconds history call task next := by
  have hnow {P : FileSystem → Prop} (hP : P fs) : Once history.past P := ⟨fs, hfs, hP⟩
  unfold advance at hnext
  rw [hphase] at hnext
  dsimp only at hnext
  split at hnext
  · next hblocked =>
    -- blocked
    obtain rfl := Option.some.inj hnext
    refine .aside httl hstores (.elsewhere _ (by decide) (hnow fun getTime putTime => ?_))
    unfold handle
    dsimp only
    rw [if_pos hblocked]
  · next hsafe =>
    split at hnext
    · next hdir =>
      split at hnext
      · next hslash =>
        -- a directory without its slash is redirected
        obtain rfl := Option.some.inj hnext
        refine .aside httl hstores (.elsewhere _ (by decide : (301 : Int) ≠ 200)
          (hnow fun getTime putTime => ?_))
        unfold handle
        dsimp only
        rw [if_neg hsafe, if_pos hdir, if_pos hslash]
      · next hslash =>
        obtain rfl := Option.some.inj hnext
        refine .aside httl hstores (hnow ?_)
        unfold servedPath
        dsimp only
        rw [if_neg hsafe, if_pos hdir, if_neg hslash]
    · next hfile =>
      obtain rfl := Option.some.inj hnext
      refine .aside httl hstores (hnow ?_)
      unfold servedPath
      dsimp only
      rw [if_neg hsafe, if_neg hfile]

omit hfs in
theorem stepSound_looking {fsPath : Bytes} (hphase : task.phase = .looking fsPath)
    (hpath : Chosen history.past task fsPath) : StepSound ttlSeconds history call task next := by
  unfold advance at hnext
  rw [hphase] at hnext
  dsimp only at hnext
  obtain ⟨hhit, hafter⟩ := hstores.get fsPath now
  have httl' : (c.get fsPath now).2.ttlSeconds = ttlSeconds :=
    (c.call_settings ⟨now, .get fsPath⟩).2.trans httl
  rcases hget : c.get fsPath now with ⟨_ | cached, c'⟩
  · rw [hget] at hnext hafter httl'
    obtain rfl := Option.some.inj hnext
    exact .aside httl' hafter hpath
  · rw [hget] at hnext hafter httl' hhit
    obtain rfl := Option.some.inj hnext
    -- a hit: some call has put it, no longer ago than the lifetime of entries
    obtain ⟨⟨hmime, source, hput⟩, hage⟩ := hhit cached rfl
    rw [httl] at hage
    refine .aside httl' hafter ?_
    rw [hmime]
    exact AnswerSound.file fsPath cached.data (bytes "HIT") source cached.created hpath
      (List.mem_append_left _ hput) (Or.inr (lt_of_elapsedSeconds_le hage))

theorem stepSound_checking {fsPath : Bytes} (hphase : task.phase = .checking fsPath)
    (hpath : Chosen history.past task fsPath) : StepSound ttlSeconds history call task next := by
  unfold advance at hnext
  rw [hphase] at hnext
  dsimp only at hnext
  split at hnext
  · next hmissing =>
    obtain rfl := Option.some.inj hnext
    exact .aside httl hstores (.missing fsPath hpath ⟨fs, hfs, by simpa using hmissing⟩)
  · next hexists =>
    obtain rfl := Option.some.inj hnext
    have hfound : fs.fileExists fsPath = true := by simpa using hexists
    exact .aside httl hstores ⟨hpath, fs, hfs, List.mem_append_right _ (List.mem_singleton_self _),
      hfound⟩

theorem stepSound_opening {fsPath : Bytes} (hphase : task.phase = .opening fsPath)
    (hpath : Chosen history.past task fsPath) (hfound : FoundBy history call fsPath) :
    StepSound ttlSeconds history call task next := by
  have hext (next : CallStep) := history.extends_append next
  unfold advance at hnext
  rw [hphase] at hnext
  dsimp only at hnext
  cases hread : fs.readFile fsPath with
  | none =>
    rw [hread] at hnext
    obtain rfl := Option.some.inj hnext
    exact .aside httl hstores (.unreadable fsPath hpath (hfound.mono (hext _)) ⟨fs, hfs, hread⟩)
  | some content =>
    rw [hread] at hnext
    obtain rfl := Option.some.inj hnext
    exact .aside httl hstores ⟨hpath, hfound.mono (hext _), fs, hfs,
      List.mem_append_right _ (List.mem_singleton_self _), hread⟩

omit hfs in
/-- What is put is what was read, which may be long ago. -/
theorem stepSound_putting {fsPath content : Bytes} (hphase : task.phase = .putting fsPath content)
    (hpath : Chosen history.past task fsPath) (hfound : FoundBy history call fsPath)
    (hread : ReadBy history call fsPath content) : StepSound ttlSeconds history call task next := by
  unfold advance at hnext
  rw [hphase] at hnext
  obtain rfl := Option.some.inj hnext
  have hput : (⟨call, fsPath, content, now⟩ : FilePut) ∈
      history.puts ++ [⟨call, fsPath, content, now⟩] :=
    List.mem_append_right _ (List.mem_singleton_self _)
  refine ⟨?_, ?_, fun w hw => ?_, ?_⟩
  · exact (c.call_settings ⟨now, .put fsPath content (getMimeType fsPath)⟩).2.trans httl
  · have hmore : c.Stores (FromPut (history.puts ++ [⟨call, fsPath, content, now⟩])) :=
      hstores.mono fun k data contentType created hfrom =>
        ⟨hfrom.1, hfrom.2.imp fun source => List.mem_append_left _⟩
    exact hmore.put ⟨rfl, call, hput⟩
  · obtain rfl := List.mem_singleton.mp hw
    exact ⟨hfound, hread⟩
  · exact AnswerSound.file fsPath content (bytes "MISS") call now hpath hput (Or.inl ⟨rfl, rfl⟩)

/-- **Step lemma** for one call. -/
theorem stepSound_of_advance (h : TaskSound ttlSeconds history call task) :
    StepSound ttlSeconds history call task next := by
  unfold TaskSound at h
  cases hphase : task.phase with
  | started => exact stepSound_started hfs httl hstores hnext hphase
  | looking fsPath =>
    rw [hphase] at h
    exact stepSound_looking httl hstores hnext hphase h
  | checking fsPath =>
    rw [hphase] at h
    exact stepSound_checking hfs httl hstores hnext hphase h
  | opening fsPath =>
    rw [hphase] at h
    exact stepSound_opening hfs httl hstores hnext hphase h.1 h.2
  | putting fsPath content =>
    rw [hphase] at h
    exact stepSound_putting httl hstores hnext hphase h.1 h.2.1 h.2.2
  | answered response last =>
    unfold advance at hnext
    rw [hphase] at hnext
    cases hnext

end

/-- **Step lemma**: a call moves on, or the files change. -/
theorem FilesSound.step {s s' : FileServer} {label : FileLabel} (h : FilesSound ttlSeconds s)
    (hstep : fileStep s label = some s') : FilesSound ttlSeconds s' := by
  cases label with
  | advance i now =>
    dsimp only [fileStep] at hstep
    rcases here : s.tasks[i]? with _ | task
    · rw [here] at hstep
      cases hstep
    · rw [here] at hstep
      obtain ⟨next, hnext, rfl⟩ := Option.map_eq_some_iff.mp hstep
      have hsound := stepSound_of_advance h.current h.ttl h.stores hnext (h.tasks i task here)
      have hext := s.toFileHistory.extends_append next
      refine ⟨h.current, hsound.ttl, hsound.stores, fun w hw => ?_, fun j other hother => ?_⟩
      · have hold : WasFile s.toFileHistory w :=
          (List.mem_append.mp hw).elim (h.puts w) (hsound.wasFile w)
        exact ⟨hold.1.mono hext, hold.2.mono hext⟩
      · -- the call that has moved, or one of the others
        by_cases hij : i = j
        · subst hij
          obtain rfl := Option.some.inj ((moved_tasks here next).symm.trans hother)
          exact hsound.task
        · have hsame : s.tasks[j]? = some other := by
            rw [← hother]
            exact (List.getElem?_set_ne hij).symm
          exact (h.tasks j other hsame).mono hext
  | change fs =>
    obtain rfl := Option.some.inj hstep
    have hext : FileHistory.Extends { s.toFileHistory with past := s.past ++ [fs] }
        s.toFileHistory :=
      ⟨List.subset_append_left _ _, List.Subset.refl _, List.Subset.refl _⟩
    refine ⟨List.mem_append_right _ (List.mem_singleton_self fs), h.ttl, h.stores, fun w hw => ?_,
      fun i task htask => (h.tasks i task htask).mono hext⟩
    exact ⟨(h.puts w hw).1.mono hext, (h.puts w hw).2.mono hext⟩

theorem filesSound_of_reachable {maxSizeBytes : Nat} {s : FileServer}
    (h : Reachable (fileSystem maxSizeBytes ttlSeconds) s) : FilesSound ttlSeconds s :=
  h.invariant (fun _ hinit => filesSound_init hinit) fun _ _ _ hs hstep => hs.step hstep

end

/-! ## Section 4: Every Schedule -/

variable {maxSizeBytes : Nat} {ttlSeconds : Int} {s : FileServer} {i : Nat} {task : FileTask}
  {response : HttpResponse} {now : Time}

/-- **Origin**: a response with status 200 carries what a call has read from the file it had
    found; that call has put it into the cache, and is the one that answers, or did so less than
    `ttl_seconds + 1` seconds before the content was found there. -/
theorem body_was_file (h : Reachable (fileSystem maxSizeBytes ttlSeconds) s)
    (htask : s.tasks[i]? = some task) (hphase : task.phase = .answered response now)
    (hok : response.statusCode = 200) :
    ∃ fsPath source created, Chosen s.past task fsPath ∧
      FoundBy s.toFileHistory source fsPath ∧
      ReadBy s.toFileHistory source fsPath response.body ∧
      ⟨source, fsPath, response.body, created⟩ ∈ s.puts ∧
      Fresh ttlSeconds i now source created ∧
      response.headers.lookup (bytes "Content-Type") = some (getMimeType fsPath) ∧
      response.headers.lookup (bytes "Content-Length") = some (decimal response.body.length) := by
  have hsound := filesSound_of_reachable h
  have htasksound := hsound.tasks i task htask
  unfold TaskSound at htasksound
  rw [hphase] at htasksound
  cases htasksound with
  | elsewhere _ hstatus _ => exact absurd hok hstatus
  | missing fsPath _ _ => cases hok
  | unreadable fsPath _ _ _ => cases hok
  | file fsPath content xCache source created hpath hput hfresh =>
    obtain ⟨hfound, hread⟩ := hsound.puts _ hput
    obtain ⟨htype, hlength⟩ := fileResponse_headers (getMimeType fsPath) xCache content
    exact ⟨fsPath, source, created, hpath, hfound, hread, hput, hfresh, htype, hlength⟩

/-! Two workers serve the same file. -/

/-- One regular file. -/
def oneFile (content : Bytes) : FileSystem where
  stat path := if path = bytes "/w/a" then some .regular else none
  content path := if path = bytes "/w/a" then some content else none

def getTheFile : FileTask where
  request := { path := bytes "/a" }
  rootDir := bytes "/w"
  indexFile := bytes "index.html"

def twoWorkers : FileServer where
  fs := oneFile (bytes "text")
  cache := LRUCache.create 100 60
  tasks := [getTheFile, getTheFile]
  past := [oneFile (bytes "text")]

theorem twoWorkers_init : (fileSystem 100 60).init twoWorkers := by
  refine ⟨oneFile (bytes "text"), [getTheFile, getTheFile], fun task htask => ?_, rfl⟩
  rw [List.eq_of_mem_replicate (n := 2) htask]
  rfl

/-- The first reads the file, and the second finds it in the cache. -/
def readAndHit : List FileLabel :=
  [.advance 0 0, .advance 1 0, .advance 0 1, .advance 0 2, .advance 0 3, .advance 0 4,
    .advance 1 5]

theorem reachable_readAndHit {s : FileServer} (h : replay fileStep twoWorkers readAndHit = some s) :
    Reachable (fileSystem 100 60) s :=
  ⟨twoWorkers, readAndHit, twoWorkers_init, Run.of_replay h⟩

theorem body_was_file_hit :
    ∃ s task response now, replay fileStep twoWorkers readAndHit = some s ∧
      s.tasks[1]? = some task ∧ task.phase = .answered response now ∧
      ∃ fsPath source created, Chosen s.past task fsPath ∧
        FoundBy s.toFileHistory source fsPath ∧
        ReadBy s.toFileHistory source fsPath response.body ∧
        ⟨source, fsPath, response.body, created⟩ ∈ s.puts ∧
        Fresh 60 1 now source created ∧
        response.headers.lookup (bytes "Content-Type") = some (getMimeType fsPath) ∧
        response.headers.lookup (bytes "Content-Length") = some (decimal response.body.length) :=
  ⟨_, _, _, _, rfl, rfl, rfl, body_was_file (reachable_readAndHit rfl) rfl rfl rfl⟩

/-- Without a cache the chosen pathname is served from the disk. -/
theorem handle_none_of_chosen {fs : FileSystem} {fsPath : Bytes}
    (hpath : servedPath fs task.rootDir task.indexFile task.request.path = some fsPath)
    (getTime putTime : Time) :
    (handle fs getTime putTime task.request task.rootDir task.indexFile none).response =
      (serveFromDisk fs putTime fsPath none).response := by
  unfold servedPath at hpath
  unfold handle
  dsimp only at hpath ⊢
  split at hpath
  · cases hpath
  · next hsafe =>
    rw [if_neg hsafe]
    split at hpath
    · next hdir =>
      split at hpath
      · cases hpath
      · next hslash =>
        obtain rfl := Option.some.inj hpath
        rw [if_pos hdir, if_neg hslash]
        rfl
    · next hfile =>
      obtain rfl := Option.some.inj hpath
      rw [if_neg hfile]
      rfl

/-- **Transparency**: while the files stay as they are, every response of every schedule is
    that of `handle` without a cache, but for the `X-Cache` line. -/
theorem answers_without_cache (h : Reachable (fileSystem maxSizeBytes ttlSeconds) s)
    (hsame : ∀ fs ∈ s.past, fs = s.fs) (htask : task ∈ s.tasks)
    (hphase : task.phase = .answered response now) (getTime putTime : Time) :
    withoutHeader (bytes "X-Cache") response =
      withoutHeader (bytes "X-Cache")
        (handle s.fs getTime putTime task.request task.rootDir task.indexFile none).response := by
  have hsound := filesSound_of_reachable h
  have hnow {P : FileSystem → Prop} (hP : Once s.past P) : P s.fs := by
    obtain ⟨fs, hmem, hfs⟩ := hP
    rw [← hsame fs hmem]
    exact hfs
  obtain ⟨i, hi⟩ := List.mem_iff_getElem?.mp htask
  have htasksound := hsound.tasks i task hi
  unfold TaskSound at htasksound
  rw [hphase] at htasksound
  cases htasksound with
  | elsewhere _ _ hplain => rw [hnow hplain getTime putTime]
  | missing fsPath hpath hmissing =>
    rw [handle_none_of_chosen (hnow hpath)]
    unfold serveFromDisk
    rw [hnow hmissing]
    rfl
  | unreadable fsPath hpath hfound hread =>
    rw [handle_none_of_chosen (hnow hpath)]
    unfold serveFromDisk
    rw [(hnow hfound).2, hnow hread]
    rfl
  | file fsPath content xCache source created hpath hput hfresh =>
    obtain ⟨hfound, hread⟩ := hsound.puts _ hput
    have hfile : fileAt s.fs fsPath = some content := by
      unfold fileAt
      rw [if_pos (hnow hfound).2]
      exact (hnow hread).2
    rw [handle_none_of_chosen (hnow hpath), serveFromDisk_file hfile]
    exact withoutHeader_fileResponse _ _ _ _

theorem answers_without_cache_hit :
    ∃ s task response now, replay fileStep twoWorkers readAndHit = some s ∧
      s.tasks[1]? = some task ∧ task.phase = .answered response now ∧
      ∀ getTime putTime, withoutHeader (bytes "X-Cache") response =
        withoutHeader (bytes "X-Cache") (handle s.fs getTime putTime task.request task.rootDir
          task.indexFile none).response := by
  refine ⟨_, _, _, _, rfl, rfl, rfl, fun getTime putTime => ?_⟩
  refine answers_without_cache (reachable_readAndHit rfl) (fun fs hfs => ?_)
    (List.mem_of_getElem? (i := 1) rfl) rfl getTime putTime
  exact List.mem_singleton.mp hfs

end StaticHandler

end VeloxServe
