import VeloxServe.Core.EventLoop

/-! # Tasks and Recycled Descriptors

    A `process_request` task holds the `Connection` but talks to epoll and
    `getpeername` by descriptor number. As long as the number is free or still
    that of the connection's own socket (`OwnDescriptor`), a task keeps to
    itself; once it has been given to another client, the task reads that
    client's address and switches its socket to write mode.
-/

namespace VeloxServe

open StdString LTS

universe u

namespace LoopState

variable {σ : Type u} {s s' : LoopState σ}

/-! ## Changing One Table -/

theorem Wired.close (h : s.Wired) (fd : Nat) (connections : UnorderedMap Nat Nat)
    (hmap : ∀ fd', connections.lookup fd' = if fd' = fd then none else s.connections.lookup fd') :
    Wired { s with connections := connections, kernel := s.kernel.close fd } := by
  -- what is left open or mapped is what was so before under another number
  have hfiles : ∀ fd' file, (s.kernel.close fd).files fd' = some file →
      fd' ≠ fd ∧ s.kernel.files fd' = some file := by
    intro fd' file hfile
    by_cases heq : fd' = fd
    · subst heq
      simp [Kernel.close] at hfile
    · exact ⟨heq, by simpa [Kernel.close, heq] using hfile⟩
  have hlook : ∀ fd' c, connections.lookup fd' = some c →
      fd' ≠ fd ∧ s.connections.lookup fd' = some c := by
    intro fd' c hc
    rw [hmap] at hc
    by_cases heq : fd' = fd
    · rw [if_pos heq] at hc
      cases hc
    · rw [if_neg heq] at hc
      exact ⟨heq, hc⟩
  constructor
  · intro fd' c hc
    obtain ⟨hne, hc⟩ := hlook fd' c hc
    obtain ⟨hfd, file, hfile, hrest⟩ := h.mapped fd' c hc
    refine ⟨hfd, file, ?_, hrest⟩
    simpa [Kernel.close, hne] using hfile
  · intro fd₁ fd₂ file₁ file₂ h₁ h₂ hid
    exact h.injective fd₁ fd₂ file₁ file₂ (hfiles _ _ h₁).2 (hfiles _ _ h₂).2 hid
  · intro fd' file hfile
    exact h.fresh fd' file (hfiles _ _ hfile).2
  · exact h.taskFresh
  · intro c hc fd' file hfile hid
    obtain ⟨hne, hfile⟩ := hfiles _ _ hfile
    show connections.lookup fd' = some c
    rw [hmap, if_neg hne]
    exact h.taskMapped c hc fd' file hfile hid
  · intro fd' hnone
    show Function.update s.kernel.registered fd none fd' = none
    by_cases heq : fd' = fd
    · rw [heq, Function.update_self]
    · rw [Function.update_of_ne heq]
      refine h.registered fd' ?_
      simpa [Kernel.close, heq] using hnone
  · intro fd' c hc hout
    obtain ⟨hne, hc⟩ := hlook fd' c hc
    refine h.writers fd' c hc ?_
    simpa [Kernel.close, hne] using hout

theorem Wired.openFile (h : s.Wired) {fd : Nat} (hfree : s.kernel.files fd = none)
    (peer : Option Bytes) (pollable : Bool) : (s.openOther fd peer pollable).Wired := by
  -- an open file is the new one or an old one under another number
  have hfiles : ∀ fd' file, (s.openOther fd peer pollable).kernel.files fd' = some file →
      (fd' = fd ∧ file.id = s.nextId) ∨ (fd' ≠ fd ∧ s.kernel.files fd' = some file) := by
    intro fd' file hfile
    by_cases heq : fd' = fd
    · subst heq
      have hnew : some (⟨s.nextId, peer, pollable⟩ : Descriptor) = some file := by
        simpa [openOther, Kernel.openFile] using hfile
      obtain rfl := Option.some.inj hnew
      exact .inl ⟨rfl, rfl⟩
    · exact .inr ⟨heq, by simpa [openOther, Kernel.openFile, heq] using hfile⟩
  constructor
  · intro fd' c hc
    obtain ⟨hfd, file, hfile, hrest⟩ := h.mapped fd' c hc
    have hne : fd' ≠ fd := by
      rintro rfl
      rw [hfree] at hfile
      cases hfile
    refine ⟨hfd, file, ?_, hrest⟩
    simpa [openOther, Kernel.openFile, hne] using hfile
  · -- the new identity has never been given before
    intro fd₁ fd₂ file₁ file₂ h₁ h₂ hid
    rcases hfiles _ _ h₁ with ⟨heq₁, hid₁⟩ | ⟨-, hold₁⟩
    · rcases hfiles _ _ h₂ with ⟨heq₂, -⟩ | ⟨-, hold₂⟩
      · exact heq₁.trans heq₂.symm
      · have := h.fresh fd₂ file₂ hold₂
        omega
    · rcases hfiles _ _ h₂ with ⟨-, hid₂⟩ | ⟨-, hold₂⟩
      · have := h.fresh fd₁ file₁ hold₁
        omega
      · exact h.injective fd₁ fd₂ file₁ file₂ hold₁ hold₂ hid
  · intro fd' file hfile
    show file.id < s.nextId + 1
    rcases hfiles _ _ hfile with ⟨-, hid⟩ | ⟨-, hfile⟩
    · omega
    · have := h.fresh fd' file hfile
      omega
  · intro c hc
    exact Nat.lt_succ_of_lt (h.taskFresh c hc)
  · -- so no task is of the new file
    intro c hc fd' file hfile hid
    rcases hfiles _ _ hfile with ⟨-, hid'⟩ | ⟨-, hfile⟩
    · have := h.taskFresh c hc
      omega
    · exact h.taskMapped c hc fd' file hfile hid
  · intro fd' hnone
    have hne : fd' ≠ fd := by
      rintro rfl
      simp [openOther, Kernel.openFile] at hnone
    refine h.registered fd' ?_
    simpa [openOther, Kernel.openFile, hne] using hnone
  · exact h.writers

/-- Registering an open file; a writer needs data. -/
theorem Wired.register (h : s.Wired) {fd : Nat} {events : Interest} {file : Descriptor}
    (hfile : s.kernel.files fd = some file)
    (hdata : events = .output → ∀ c, s.connections.lookup fd = some c →
      (s.objects c).writeBuffer ≠ []) :
    Wired { s with kernel := s.kernel.register fd events } := by
  refine ⟨h.mapped, h.injective, h.fresh, h.taskFresh, h.taskMapped, ?_, ?_⟩
  · intro fd' hnone
    have hne : fd' ≠ fd := by
      rintro rfl
      rw [show s.kernel.files fd' = none from hnone] at hfile
      cases hfile
    show Function.update s.kernel.registered fd (some events) fd' = none
    rw [Function.update_of_ne hne]
    exact h.registered fd' hnone
  · -- a number that now waits for output has data to send
    intro fd' c hc hout
    by_cases heq : fd' = fd
    · subst heq
      have hevents : events = .output := by simpa [Kernel.register] using hout
      exact hdata hevents c hc
    · refine h.writers fd' c hc ?_
      simpa [Kernel.register, heq] using hout

/-- Changing a `Connection`; its number stays, and a writer keeps data. -/
theorem Wired.setObject (h : s.Wired) {c : Nat} {conn : Connection}
    (hfd : conn.fd = (s.objects c).fd)
    (hdata : ∀ fd, s.connections.lookup fd = some c → s.kernel.registered fd = some .output →
      conn.writeBuffer ≠ []) :
    Wired { s with objects := Function.update s.objects c conn } := by
  refine ⟨?_, h.injective, h.fresh, h.taskFresh, h.taskMapped, h.registered, ?_⟩
  · intro fd c' hc
    obtain ⟨hfd', hrest⟩ := h.mapped fd c' hc
    refine ⟨?_, hrest⟩
    show (Function.update s.objects c conn c').fd = fd
    by_cases heq : c' = c
    · subst heq
      rw [Function.update_self, hfd]
      exact hfd'
    · rw [Function.update_of_ne heq]
      exact hfd'
  · intro fd c' hc hout
    show (Function.update s.objects c conn c').writeBuffer ≠ []
    by_cases heq : c' = c
    · subst heq
      rw [Function.update_self]
      exact hdata fd hc hout
    · rw [Function.update_of_ne heq]
      exact h.writers fd c' hc hout

theorem Wired.addTask (h : s.Wired) {fd c : Nat} (hc : s.connections.lookup fd = some c) :
    Wired { s with tasks := s.tasks ++ [c] } := by
  obtain ⟨-, file, hfile, rfl, -⟩ := h.mapped fd c hc
  refine ⟨h.mapped, h.injective, h.fresh, ?_, ?_, h.registered, h.writers⟩
  · intro c' hc'
    rcases List.mem_append.mp hc' with hc' | hc'
    · exact h.taskFresh c' hc'
    · obtain rfl := List.mem_singleton.mp hc'
      exact h.fresh fd file hfile
  · -- the new task is of a mapped connection, which its file leads back to
    intro c' hc' fd' file' hfile' hid
    rcases List.mem_append.mp hc' with hc' | hc'
    · exact h.taskMapped c' hc' fd' file' hfile' hid
    · obtain rfl := List.mem_singleton.mp hc'
      obtain rfl := h.injective fd' fd file' file hfile' hfile hid
      exact hc

/-- A task leaves the queue. -/
theorem Wired.dropTasks (h : s.Wired) {tasks : List Nat} (hsub : tasks ⊆ s.tasks) :
    Wired { s with tasks := tasks } :=
  ⟨h.mapped, h.injective, h.fresh, fun c hc => h.taskFresh c (hsub hc),
    fun c hc => h.taskMapped c (hsub hc), h.registered, h.writers⟩

/-- The connection behind a number is not the next file. -/
theorem Wired.mapped_lt (h : s.Wired) {fd c : Nat} (hc : s.connections.lookup fd = some c) :
    c < s.nextId := by
  obtain ⟨-, file, hfile, rfl, -⟩ := h.mapped fd c hc
  exact h.fresh fd file hfile

theorem Wired.lookup_free (h : s.Wired) {fd : Nat} (hfree : s.kernel.files fd = none) :
    s.connections.lookup fd = none := by
  rcases hc : s.connections.lookup fd with _ | c
  · rfl
  · obtain ⟨-, file, hfile, -⟩ := h.mapped fd c hc
    rw [hfree] at hfile
    cases hfile

/-! ## Handlers -/

theorem Wired.closeConnection (h : s.Wired) (fd : Nat) : (s.closeConnection fd).Wired := by
  unfold LoopState.closeConnection
  split
  · exact h
  · refine h.close fd (s.connections.erase fd) (fun fd' => ?_)
    by_cases heq : fd' = fd
    · rw [heq, if_pos rfl, AList.lookup_erase]
    · rw [if_neg heq, AList.lookup_erase_ne heq]

theorem Wired.reset (h : s.Wired) (fd : Nat) : (s.reset fd).Wired := by
  unfold LoopState.reset
  rcases hfile : s.kernel.files fd with _ | file
  · exact h
  -- a reset changes the peer of a file, and no identity
  have hfiles : ∀ fd' file', Function.update s.kernel.files fd
      (some { file with peer := none }) fd' = some file' →
      ∃ old, s.kernel.files fd' = some old ∧ old.id = file'.id := by
    intro fd' file' hfile'
    by_cases heq : fd' = fd
    · subst heq
      rw [Function.update_self] at hfile'
      obtain rfl := Option.some.inj hfile'
      exact ⟨file, hfile, rfl⟩
    · rw [Function.update_of_ne heq] at hfile'
      exact ⟨file', hfile', rfl⟩
  constructor
  · intro fd' c hc
    obtain ⟨hfd, old, hold, hid, hpoll, hpeer⟩ := h.mapped fd' c hc
    refine ⟨hfd, ?_⟩
    show ∃ new, Function.update s.kernel.files fd (some { file with peer := none }) fd' =
      some new ∧ _
    by_cases heq : fd' = fd
    · subst heq
      rw [hfile] at hold
      obtain rfl := Option.some.inj hold
      exact ⟨_, Function.update_self _ _ _, hid, hpoll, .inr rfl⟩
    · rw [Function.update_of_ne heq]
      exact ⟨old, hold, hid, hpoll, hpeer⟩
  · intro fd₁ fd₂ file₁ file₂ h₁ h₂ hid
    obtain ⟨old₁, hold₁, hid₁⟩ := hfiles fd₁ file₁ h₁
    obtain ⟨old₂, hold₂, hid₂⟩ := hfiles fd₂ file₂ h₂
    exact h.injective fd₁ fd₂ old₁ old₂ hold₁ hold₂ (hid₁.trans (hid.trans hid₂.symm))
  · intro fd' file' hfile'
    obtain ⟨old, hold, hid⟩ := hfiles fd' file' hfile'
    rw [← hid]
    exact h.fresh fd' old hold
  · exact h.taskFresh
  · intro c hc fd' file' hfile' hid'
    obtain ⟨old, hold, hid⟩ := hfiles fd' file' hfile'
    exact h.taskMapped c hc fd' old hold (hid.trans hid')
  · intro fd' hnone
    refine h.registered fd' ?_
    by_cases heq : fd' = fd
    · subst heq
      simp [Kernel.openFile] at hnone
    · simpa [Kernel.openFile, heq] using hnone
  · exact h.writers

theorem Wired.handleAccept (h : s.Wired) {fd : Nat} (hfree : s.kernel.files fd = none)
    (peer : Bytes) (now : Time) : (s.handleAccept fd peer now).Wired := by
  have hopened := h.openFile hfree (some peer) true
  -- refusing the connection closes the new socket again
  have hrefused : ∀ kernel, kernel = (s.openOther fd (some peer) true).kernel →
      Wired { s.openOther fd (some peer) true with kernel := kernel.close fd } := by
    rintro kernel rfl
    refine hopened.close fd s.connections (fun fd' => ?_)
    by_cases heq : fd' = fd
    · rw [heq, if_pos rfl]
      exact h.lookup_free hfree
    · rw [if_neg heq]
      rfl
  unfold LoopState.handleAccept
  dsimp only
  split
  · exact hrefused _ rfl
  · have hwatch : EpollWrapper.watchable fd
        (s.kernel.openFile fd ⟨s.nextId, some peer, true⟩) = true := by
      simp [EpollWrapper.watchable, Kernel.openFile]
    rw [EpollWrapper.add_eq, if_pos hwatch]
    dsimp only
    -- the new connection object is not one that is mapped already
    have hlast : ∀ fd' c, fd' ≠ fd → s.connections.lookup fd' = some c → c ≠ s.nextId := by
      intro fd' c _ hc heq
      have := h.mapped_lt hc
      omega
    constructor
    · intro fd' c hc
      rw [UnorderedMap.lookup_set] at hc
      by_cases heq : fd' = fd
      · subst heq
        rw [if_pos rfl] at hc
        obtain rfl := Option.some.inj hc
        refine ⟨by simp, ⟨s.nextId, some peer, true⟩, ?_, rfl, rfl, .inl ?_⟩
        · simp [Kernel.register, Kernel.openFile]
        · simp
      · rw [if_neg heq] at hc
        obtain ⟨hfd, file, hfile, hid, hpoll, hpeer⟩ := h.mapped fd' c hc
        have hne := hlast fd' c heq hc
        refine ⟨?_, file, ?_, hid, hpoll, ?_⟩
        · simpa [hne] using hfd
        · simpa [Kernel.register, Kernel.openFile, heq] using hfile
        · simpa [hne] using hpeer
    · exact hopened.injective
    · exact hopened.fresh
    · exact hopened.taskFresh
    · -- no task is of the file that has just been opened
      intro c hc fd' file hfile hid
      rw [UnorderedMap.lookup_set]
      by_cases heq : fd' = fd
      · subst heq
        have hnew : some (⟨s.nextId, some peer, true⟩ : Descriptor) = some file := by
          simpa [Kernel.register, Kernel.openFile] using hfile
        obtain rfl := Option.some.inj hnew
        have hlt := h.taskFresh c hc
        have hid' : s.nextId = c := hid
        omega
      · rw [if_neg heq]
        exact hopened.taskMapped c hc fd' file hfile hid
    · intro fd' hnone
      have hne : fd' ≠ fd := by
        rintro rfl
        simp [Kernel.register, Kernel.openFile] at hnone
      show Function.update s.kernel.registered fd (some Interest.input) fd' = none
      rw [Function.update_of_ne hne]
      exact hopened.registered fd' hnone
    · -- the new number waits for input, and the others are as before
      intro fd' c hc hout
      by_cases heq : fd' = fd
      · subst heq
        simp [Kernel.register] at hout
      · rw [UnorderedMap.lookup_set, if_neg heq] at hc
        have hne := hlast fd' c heq hc
        have hdata := h.writers fd' c hc (by simpa [Kernel.register, Kernel.openFile, heq] using hout)
        simpa [hne] using hdata

theorem Wired.handleRead (h : s.Wired) (fd : Nat) (results : List RecvResult) :
    (s.handleRead fd results).Wired := by
  unfold LoopState.handleRead
  rcases hc : s.connections.lookup fd with _ | c
  · exact h
  dsimp only
  have hcase := handleRead_cases results (s.objects c)
  generalize VeloxServe.handleRead results (s.objects c) = r at hcase
  -- reading leaves the output of the connection alone
  have hset : ∀ conn, (s.objects c).SameOutput conn →
      Wired { s with objects := Function.update s.objects c conn } := by
    intro conn hsame
    refine h.setObject hsame.fd (fun fd' hc' hout => ?_)
    rw [hsame.writeBuffer]
    exact h.writers fd' c hc' hout
  -- closed, waiting for more, or handed to a worker
  rcases hcase with ⟨hsame, _, _, _, _⟩ | ⟨hsame, _, _, _⟩ | ⟨hsame, _, _, _⟩
  · exact (hset _ hsame).closeConnection fd
  · exact hset _ hsame
  · exact (hset _ hsame).addTask hc

theorem closeConnection_objects (s : LoopState σ) (fd : Nat) (objects : Nat → Connection) :
    ({ s with objects := objects } : LoopState σ).closeConnection fd =
      { s.closeConnection fd with objects := objects } := by
  unfold LoopState.closeConnection
  dsimp only
  split <;> rfl

/-- A connection has one descriptor number. -/
theorem Wired.lookup_unique (h : s.Wired) {fd fd' c : Nat}
    (hc : s.connections.lookup fd = some c) (hc' : s.connections.lookup fd' = some c) :
    fd' = fd :=
  (h.mapped fd' c hc').1.symm.trans (h.mapped fd c hc).1

/-- A connection that is closed may be left in any state. -/
theorem Wired.setClosed (h : s.Wired) {fd c : Nat} {conn : Connection}
    (hc : s.connections.lookup fd = some c) (hfd : conn.fd = (s.objects c).fd) :
    Wired (({ s with objects := Function.update s.objects c conn } : LoopState σ).closeConnection
      fd) := by
  have hobjects : (s.closeConnection fd).objects = s.objects := by
    unfold LoopState.closeConnection
    rw [hc]
  have hconns : (s.closeConnection fd).connections = s.connections.erase fd := by
    unfold LoopState.closeConnection
    rw [hc]
  rw [closeConnection_objects, ← hobjects]
  refine (h.closeConnection fd).setObject (by rw [hobjects]; exact hfd) (fun fd' hc' _ => ?_)
  rw [hconns] at hc'
  by_cases heq : fd' = fd
  · rw [heq, AList.lookup_erase] at hc'
    cases hc'
  · rw [AList.lookup_erase_ne heq] at hc'
    exact absurd (h.lookup_unique hc hc') heq

theorem Wired.handleWrite (h : s.Wired) (fd : Nat) (results : List SendResult) :
    (s.handleWrite fd results).Wired := by
  unfold LoopState.handleWrite
  rcases hc : s.connections.lookup fd with _ | c
  · exact h
  dsimp only
  have hcase := handleWrite_cases results (s.objects c)
  generalize VeloxServe.handleWrite results (s.objects c) = r at hcase
  -- nothing to send, partly sent, or all sent and kept open or closed
  rcases hcase with hempty | ⟨hne, hrearm, hle⟩ | ⟨hne, hkeep⟩ | ⟨hne, hkeep⟩
  · exact h.setClosed hc rfl
  · rename_i n outcome
    cases outcome with
    | close => exact h.setClosed hc rfl
    | wait => exact h.setObject rfl (fun _ _ _ => hne)
    | rearm => exact absurd rfl hrearm
  · -- the registration goes back to input before the empty buffer matters
    obtain ⟨-, file, hfile, -, hpoll, -⟩ := h.mapped fd c hc
    have hwatch : EpollWrapper.watchable fd s.kernel = true := by
      simp [EpollWrapper.watchable, hfile, hpoll]
    dsimp only
    rw [EpollWrapper.modify_eq, if_pos hwatch]
    have hinput : Wired { s with kernel := s.kernel.register fd .input } :=
      h.register hfile (fun hout => by cases hout)
    refine hinput.setObject rfl (fun fd' hc' hout => ?_)
    obtain rfl := h.lookup_unique hc hc'
    simp [Kernel.register] at hout
  · exact h.setClosed hc rfl

/-! ## Tasks -/

/-- What switching the descriptor of a task does, when the number is free or its own. -/
theorem Wired.taskIsLocal (h : s.Wired) (svc : Service σ) {task c : Nat}
    (htask : s.tasks[task]? = some c)
    (hown : ∀ file, s.kernel.files (s.objects c).fd = some file → file.id = c) :
    s.TaskIsLocal c { s.processTask svc c with tasks := s.tasks.eraseIdx task } := by
  have hmem : c ∈ s.tasks := List.mem_of_getElem? htask
  have hkernel : (s.processTask svc c).kernel =
      if EpollWrapper.watchable (s.objects c).fd s.kernel then
        s.kernel.register (s.objects c).fd .output else s.kernel :=
    EpollWrapper.modify_eq _ _ _
  -- the registration can only be changed for a number that is the task's own
  have hopen : EpollWrapper.watchable (s.objects c).fd s.kernel = true →
      ∃ file, s.kernel.files (s.objects c).fd = some file ∧ file.id = c := by
    intro hwatch
    obtain ⟨file, hfile, -⟩ := (Option.any_eq_true _ _).mp hwatch
    exact ⟨file, hfile, hown file hfile⟩
  constructor
  · intro c' hne
    exact Function.update_of_ne hne _ _
  · intro fd hchanged
    replace hchanged : (s.processTask svc c).kernel.registered fd ≠ s.kernel.registered fd :=
      hchanged
    rw [hkernel] at hchanged
    split at hchanged
    · next hwatch =>
      by_cases heq : fd = (s.objects c).fd
      · rw [heq]
        exact hopen hwatch
      · exact absurd (Function.update_of_ne heq _ _) hchanged
    · exact absurd rfl hchanged
  · -- when the connection is gone, no registration changes
    intro hclosed
    show (s.processTask svc c).kernel.registered = s.kernel.registered
    rw [hkernel]
    split
    · next hwatch =>
      obtain ⟨file, hfile, hid⟩ := hopen hwatch
      exact absurd (h.taskMapped c hmem _ file hfile hid) (hclosed _)
    · rfl
  · show (s.processTask svc c).kernel.files = s.kernel.files
    rw [hkernel]
    split <;> rfl
  · rfl
  · -- the client address is that of the connection, unless it is gone
    refine ⟨s.getClientIp (s.objects c).fd, rfl, ?_⟩
    unfold getClientIp
    rcases hfile : s.kernel.files (s.objects c).fd with _ | file
    · exact .inr rfl
    · have hmapped := h.taskMapped c hmem _ file hfile (hown file hfile)
      obtain ⟨-, file', hfile', -, -, hpeer⟩ := h.mapped _ c hmapped
      rw [hfile] at hfile'
      obtain rfl := Option.some.inj hfile'
      rcases hpeer with hpeer | hpeer
      · exact .inl (by simp [hpeer])
      · exact .inr (by simp [hpeer])

theorem Wired.processTask (h : s.Wired) (svc : Service σ) {task c : Nat}
    (htask : s.tasks[task]? = some c)
    (hown : ∀ file, s.kernel.files (s.objects c).fd = some file → file.id = c) :
    Wired { s.processTask svc c with tasks := s.tasks.eraseIdx task } := by
  have hmem : c ∈ s.tasks := List.mem_of_getElem? htask
  have hdata : (processRequest svc (s.getClientIp (s.objects c).fd) (s.objects c)
      s.world).1.writeBuffer ≠ [] := HttpResponse.build_ne_nil _ _
  have hobject : Wired { s with
      objects := Function.update s.objects c (processRequest svc
        (s.getClientIp (s.objects c).fd) (s.objects c) s.world).1 } :=
    h.setObject rfl (fun _ _ _ => hdata)
  have hset := hobject.dropTasks (List.eraseIdx_subset (l := s.tasks) (k := task))
  unfold LoopState.processTask
  dsimp only
  rw [EpollWrapper.modify_eq]
  -- the worker rearms the descriptor, or finds it closed
  split
  · next hwatch =>
    obtain ⟨file, hfile, -⟩ := (Option.any_eq_true _ _).mp hwatch
    have hmapped := h.taskMapped c hmem _ file hfile (hown file hfile)
    have hregister := hset.register hfile (fun (_ : Interest.output = .output) => ?_)
    · exact ⟨hregister.mapped, hregister.injective, hregister.fresh, hregister.taskFresh,
        hregister.taskMapped, hregister.registered, hregister.writers⟩
    · intro c' hc'
      obtain rfl : c' = c := Option.some.inj (hc'.symm.trans hmapped)
      show (Function.update s.objects c' _ c').writeBuffer ≠ []
      rw [Function.update_self]
      exact hdata
  · exact ⟨hset.mapped, hset.injective, hset.fresh, hset.taskFresh, hset.taskMapped,
      hset.registered, hset.writers⟩

/-! ## Steps -/

/-- **Preservation**: a step that meets the condition is isolated and keeps the
    tables wired. -/
theorem Wired.step (h : s.Wired) {svc : Service σ} {label : LoopLabel}
    (hstep : s.step svc label = some s') (hgood : s.OwnDescriptor label s') :
    s.Isolated label s' ∧ s'.Wired := by
  -- only `work` says anything beyond the invariant
  have hquiet : (∀ task, label ≠ .work task) → s'.Wired → s.Isolated label s' ∧ s'.Wired := by
    intro hlabel hwired
    exact ⟨⟨fun task c htask => absurd htask (hlabel task), hwired.writers⟩, hwired⟩
  unfold LoopState.step at hstep
  cases label with
  | accept fd peer now =>
    obtain ⟨hfree, heq⟩ := Option.ite_none_right_eq_some.mp hstep
    obtain rfl := Option.some.inj heq
    exact hquiet (by simp) (h.handleAccept hfree peer now)
  | close fd =>
    obtain rfl := Option.some.inj hstep
    exact hquiet (by simp) (h.closeConnection fd)
  | read fd results =>
    obtain ⟨-, heq⟩ := Option.ite_none_right_eq_some.mp hstep
    obtain rfl := Option.some.inj heq
    exact hquiet (by simp) (h.handleRead fd results)
  | write fd results =>
    obtain ⟨-, heq⟩ := Option.ite_none_right_eq_some.mp hstep
    obtain rfl := Option.some.inj heq
    exact hquiet (by simp) (h.handleWrite fd results)
  | work task =>
    dsimp only at hstep
    rcases htask : s.tasks[task]? with _ | c
    · rw [htask] at hstep
      cases hstep
    · rw [htask] at hstep
      obtain rfl := Option.some.inj hstep
      have hown : ∀ file, s.kernel.files (s.objects c).fd = some file → file.id = c :=
        fun file hfile => hgood task c file rfl htask hfile
      have hwired := h.processTask svc htask hown
      refine ⟨⟨fun task' c' hlabel htask' => ?_, hwired.writers⟩, hwired⟩
      obtain rfl := LoopLabel.work.inj hlabel
      obtain rfl := Option.some.inj (htask.symm.trans htask')
      exact h.taskIsLocal svc htask hown
  | reset fd =>
    obtain rfl := Option.some.inj hstep
    exact hquiet (by simp) (h.reset fd)
  | openOther fd peer pollable =>
    obtain ⟨hfree, heq⟩ := Option.ite_none_right_eq_some.mp hstep
    obtain rfl := Option.some.inj heq
    exact hquiet (by simp) (h.openFile hfree peer pollable)
  | closeOther fd =>
    obtain ⟨hnone, heq⟩ := Option.ite_none_right_eq_some.mp hstep
    obtain rfl := Option.some.inj heq
    refine hquiet (by simp) (h.close fd s.connections (fun fd' => ?_))
    by_cases heq : fd' = fd
    · rw [heq, if_pos rfl]
      exact hnone
    · rw [if_neg heq]

end LoopState

/-! ## Runs -/

open LoopState

/-- **Tasks keep to themselves** in every run in which, whenever one runs, the
    descriptor number of its connection is free or still its own. -/
theorem tasks_isolated {σ : Type u} (svc : Service σ) {s₀ s : LoopState σ} {ls : List LoopLabel}
    (h₀ : (loopSystem svc).init s₀) (hrun : Run ((loopSystem svc).restrict OwnDescriptor) s₀ ls s) :
    Run ((loopSystem svc).restrict Isolated) s₀ ls s := by
  obtain ⟨world, rfl⟩ := h₀
  refine (Run.restrict_mono (fun s label s' hwired hstep hgood => ?_) (wired_init world) hrun).1
  exact hwired.step hstep hgood

/-- A client whose request is dispatched. -/
def firstClient : List LoopLabel :=
  [.accept 7 (bytes "10.0.0.1") 0, .read 7 [.received (bytes "GET / HTTP/1.1\r\n\r\n") 0]]

/-- The server without connections. -/
def emptyLoop : LoopState Unit := { world := () }

/-- The server with one dispatched request. -/
def dispatchedLoop : LoopState Unit :=
  (emptyLoop.handleAccept 7 (bytes "10.0.0.1") 0).handleRead 7
    [.received (bytes "GET / HTTP/1.1\r\n\r\n") 0]

/-- The task of a client that is still there runs on its own socket. -/
theorem tasks_isolated_single :
    Run ((loopSystem healthService).restrict Isolated) emptyLoop (firstClient ++ [.work 0])
      { dispatchedLoop.processTask healthService 0 with tasks := [] } := by
  have haccept : (loopSystem healthService).step emptyLoop (.accept 7 (bytes "10.0.0.1") 0)
      (emptyLoop.handleAccept 7 (bytes "10.0.0.1") 0) := rfl
  have hread : (loopSystem healthService).step (emptyLoop.handleAccept 7 (bytes "10.0.0.1") 0)
      (.read 7 [.received (bytes "GET / HTTP/1.1\r\n\r\n") 0]) dispatchedLoop := rfl
  have htasks : dispatchedLoop.tasks = [0] := by decide +kernel
  have hwork : (loopSystem healthService).step dispatchedLoop (.work 0)
      { dispatchedLoop.processTask healthService 0 with tasks := [] } := by
    show LoopState.step healthService dispatchedLoop (.work 0) = _
    unfold LoopState.step
    dsimp only
    rw [htasks]
    rfl
  have hown : ∀ file, dispatchedLoop.kernel.files 7 = some file → file.id = 0 := by
    intro file hfile
    obtain rfl := Option.some.inj ((by decide +kernel : dispatchedLoop.kernel.files 7 =
      some ⟨0, some (bytes "10.0.0.1"), true⟩).symm.trans hfile)
    rfl
  have hfd : (dispatchedLoop.objects 0).fd = 7 := by decide +kernel
  refine tasks_isolated healthService ⟨(), rfl⟩ (Run.cons ⟨haccept, ?_⟩
    (Run.cons ⟨hread, ?_⟩ (Run.single ⟨hwork, ?_⟩)))
  · intro task c file hlabel
    cases hlabel
  · intro task c file hlabel
    cases hlabel
  · intro task c file hlabel htask hfile
    obtain rfl := LoopLabel.work.inj hlabel
    rw [htasks] at htask
    obtain rfl := Option.some.inj htask
    rw [hfd] at hfile
    exact hown file hfile

/-- It leaves before its task runs, and the next client gets its number. -/
def secondClient : List LoopLabel := firstClient ++ [.close 7, .accept 7 (bytes "10.0.0.2") 1]

/-- The task of the first client then charges the second one and switches its
    socket to write mode. -/
theorem tasks_recycled :
    ¬ ∀ (s₀ s s' : LoopState Unit) (ls : List LoopLabel) (label : LoopLabel),
      (loopSystem healthService).init s₀ → Run (loopSystem healthService) s₀ ls s →
        (loopSystem healthService).step s label s' → s.Isolated label s' := by
  intro hall
  have hfacts : (replay (LoopState.step healthService) emptyLoop secondClient).any (fun s =>
      decide (s.tasks[0]? = some 0 ∧ s.kernel.files 7 = some ⟨1, some (bytes "10.0.0.2"), true⟩ ∧
        s.kernel.registered 7 = some .input ∧
        (s.processTask healthService 0).kernel.registered 7 = some .output)) = true := by
    decide +kernel
  obtain ⟨s, hs, hend⟩ := (Option.any_eq_true _ _).mp hfacts
  obtain ⟨htask, hfile, hbefore, hafter⟩ := of_decide_eq_true hend
  have hstep : (loopSystem healthService).step s (.work 0)
      { s.processTask healthService 0 with tasks := s.tasks.eraseIdx 0 } := by
    show LoopState.step healthService s (.work 0) = _
    unfold LoopState.step
    dsimp only
    rw [htask]
  have hlocal := (hall _ s _ _ _ ⟨(), rfl⟩ (Run.of_replay hs) hstep).1 0 0 rfl htask
  -- the registration that changes belongs to the second client
  obtain ⟨file, hfile', hid⟩ := hlocal.registration 7 (by rw [hbefore, hafter]; simp)
  rw [hfile] at hfile'
  obtain rfl := Option.some.inj hfile'
  cases hid

end VeloxServe
