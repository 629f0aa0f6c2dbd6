import VeloxServe.Core.EpollWrapper
import VeloxServe.Framework.UnorderedMap

/-! # The Event Loop over Many Connections

    The handlers of `src/core/server.cpp` on the shared tables: the descriptors
    of the process, the interest list of epoll, `connections_`, the
    `Connection` objects (which outlive their sockets in the tasks that hold
    them) and the queue of `process_request` tasks.

    A `Connection` is named by the file it was accepted with. Besides the
    server the rest of the process opens and closes descriptors (connections
    to backends, files, logs), and the kernel gives any free number to a newly
    opened file.

    A handler and a `process_request` are one step each. The source takes no lock
    for a `Connection`, so what a worker does in the middle of a handler of the
    same connection is left out.
-/

namespace VeloxServe

open StdString LTS

universe u

/-- `MAX_CONNECTIONS`. -/
def maxConnections : Nat := 10000

structure LoopState (σ : Type u) where
  kernel : Kernel := {}
  /-- `connections_`: the connection behind a descriptor number. -/
  connections : UnorderedMap Nat Nat := ∅
  /-- The `Connection` objects. -/
  objects : Nat → Connection := fun _ => { fd := 0, lastActivity := 0 }
  /-- The connections with an enqueued `process_request`. -/
  tasks : List Nat := []
  /-- The next file to be opened. -/
  nextId : Nat := 0
  /-- The address each client connected from. -/
  address : Nat → Bytes := fun _ => []
  /-- The addresses tasks have given to the rate limiter, with their connections. -/
  charged : List (Nat × Bytes) := []
  world : σ

inductive LoopLabel where
  /-- `accept4` returns `fd`, connected to `peer`. -/
  | accept (fd : Nat) (peer : Bytes) (now : Time)
  /-- `close_connection`: a hang-up, a socket error or an idle connection. -/
  | close (fd : Nat)
  /-- `handle_read`. -/
  | read (fd : Nat) (results : List RecvResult)
  /-- `handle_write`. -/
  | write (fd : Nat) (results : List SendResult)
  /-- A worker takes a task, given by its place in the queue. -/
  | work (task : Nat)
  /-- The peer of a socket goes away. -/
  | reset (fd : Nat)
  /-- The process opens a file of its own. -/
  | openOther (fd : Nat) (peer : Option Bytes) (pollable : Bool)
  | closeOther (fd : Nat)

namespace LoopState

variable {σ : Type u}

/-- `get_client_ip`. -/
def getClientIp (fd : Nat) (s : LoopState σ) : Bytes :=
  ((s.kernel.files fd).bind Descriptor.peer).getD (bytes "unknown")

/-- `close_connection`. -/
def closeConnection (fd : Nat) (s : LoopState σ) : LoopState σ :=
  match s.connections.lookup fd with
  | none => s  -- already closed
  | some _ => { s with connections := s.connections.erase fd, kernel := s.kernel.close fd }

/-- `handle_accept`, for one pending connection. -/
def handleAccept (fd : Nat) (peer : Bytes) (now : Time) (s : LoopState σ) : LoopState σ :=
  let c := s.nextId
  let file : Descriptor := { id := c, peer := some peer, pollable := true }
  let s := { s with kernel := s.kernel.openFile fd file, nextId := c + 1 }
  if s.connections.entries.length ≥ maxConnections then
    { s with kernel := s.kernel.close fd }
  else match EpollWrapper.add EpollWrapper.fallbacks fd .input s.kernel with
    | (false, kernel) => { s with kernel := kernel.close fd }
    | (true, kernel) =>
      { s with
        kernel := kernel
        objects := Function.update s.objects c { fd := fd, lastActivity := now }
        address := Function.update s.address c peer
        connections := UnorderedMap.set fd c s.connections }

/-- `handle_read`. -/
def handleRead (fd : Nat) (results : List RecvResult) (s : LoopState σ) : LoopState σ :=
  match s.connections.lookup fd with
  | none => s  -- already closed
  | some c =>
    let (_, outcome, conn) := VeloxServe.handleRead results (s.objects c)
    let s := { s with objects := Function.update s.objects c conn }
    match outcome with
    | .close => s.closeConnection fd
    | .wait => s
    | .dispatch => { s with tasks := s.tasks ++ [c] }

/-- `handle_write`. -/
def handleWrite (fd : Nat) (results : List SendResult) (s : LoopState σ) : LoopState σ :=
  match s.connections.lookup fd with
  | none => s
  | some c =>
    let (_, outcome, conn) := VeloxServe.handleWrite results (s.objects c)
    let s := { s with objects := Function.update s.objects c conn }
    match outcome with
    | .close => s.closeConnection fd
    | .wait => s
    | .rearm =>
      { s with kernel := (EpollWrapper.modify EpollWrapper.fallbacks fd .input s.kernel).2 }

/-- `process_request` for connection `c`. -/
def processTask (svc : Service σ) (c : Nat) (s : LoopState σ) : LoopState σ :=
  let fd := (s.objects c).fd
  let clientIp := s.getClientIp fd
  let (conn, world) := processRequest svc clientIp (s.objects c) s.world
  { s with
    objects := Function.update s.objects c conn
    world := world
    charged := s.charged ++ [(c, clientIp)]
    -- switch this descriptor from read-mode to write-mode
    kernel := (EpollWrapper.modify EpollWrapper.fallbacks fd .output s.kernel).2 }

def openOther (fd : Nat) (peer : Option Bytes) (pollable : Bool) (s : LoopState σ) : LoopState σ :=
  { s with
    kernel := s.kernel.openFile fd { id := s.nextId, peer := peer, pollable := pollable }
    nextId := s.nextId + 1 }

/-- The file behind a number loses its peer. -/
def reset (fd : Nat) (s : LoopState σ) : LoopState σ :=
  match s.kernel.files fd with
  | none => s
  | some file => { s with kernel := s.kernel.openFile fd { file with peer := none } }

/-- The steps with their guards: events come for registered numbers, and a
    newly opened file gets a number that is not in use. -/
def step (svc : Service σ) (s : LoopState σ) : LoopLabel → Option (LoopState σ)
  | .accept fd peer now =>
    if s.kernel.files fd = none then some (s.handleAccept fd peer now) else none
  | .close fd => some (s.closeConnection fd)
  | .read fd results =>
    if s.kernel.registered fd = some .input then some (s.handleRead fd results) else none
  | .write fd results =>
    if s.kernel.registered fd = some .output then some (s.handleWrite fd results) else none
  | .work task =>
    match s.tasks[task]? with
    | none => none
    | some c => some { s.processTask svc c with tasks := s.tasks.eraseIdx task }
  | .reset fd => some (s.reset fd)
  | .openOther fd peer pollable =>
    if s.kernel.files fd = none then some (s.openOther fd peer pollable) else none
  | .closeOther fd =>
    if s.connections.lookup fd = none then some { s with kernel := s.kernel.close fd } else none

end LoopState

/-- The runs of the event loop, from a server without connections. -/
def loopSystem {σ : Type u} (svc : Service σ) : System (LoopState σ) LoopLabel :=
  System.ofStep (fun s => ∃ world, s = { world := world }) (LoopState.step svc)

namespace LoopState

variable {σ : Type u}

/-! ## The Property -/

/-- A task for connection `c` keeps to itself. -/
structure TaskIsLocal (s : LoopState σ) (c : Nat) (s' : LoopState σ) : Prop where
  /-- It changes no other connection's buffers, -/
  objects : ∀ c', c' ≠ c → s'.objects c' = s.objects c'
  /-- no registration but that of its own socket, -/
  registration : ∀ fd, s'.kernel.registered fd ≠ s.kernel.registered fd →
    ∃ file, s.kernel.files fd = some file ∧ file.id = c
  /-- none at all once its connection is closed; -/
  afterClose : (∀ fd, s.connections.lookup fd ≠ some c) →
    s'.kernel.registered = s.kernel.registered
  /-- it opens and closes nothing, -/
  files : s'.kernel.files = s.kernel.files
  connections : s'.connections = s.connections
  /-- and the rate limiter is charged for its own client or for nobody. -/
  charged : ∃ ip, s'.charged = s.charged ++ [(c, ip)] ∧
    (ip = s.address c ∨ ip = bytes "unknown")

/-- A connection in write mode has something to write, so `handle_write` does
    not close it for an empty buffer. -/
def WritersHaveData (s : LoopState σ) : Prop :=
  ∀ fd c, s.connections.lookup fd = some c → s.kernel.registered fd = some .output →
    (s.objects c).writeBuffer ≠ []

def Isolated (s : LoopState σ) (label : LoopLabel) (s' : LoopState σ) : Prop :=
  (∀ task c, label = .work task → s.tasks[task]? = some c → s.TaskIsLocal c s') ∧
    s'.WritersHaveData

/-- When a task runs, the number of its descriptor is free or still its own. -/
def OwnDescriptor (s : LoopState σ) (label : LoopLabel) (_ : LoopState σ) : Prop :=
  ∀ task c file, label = .work task → s.tasks[task]? = some c →
    s.kernel.files (s.objects c).fd = some file → file.id = c

/-! ## The Invariant -/

structure Wired (s : LoopState σ) : Prop where
  /-- `connections_` goes with the open sockets, -/
  mapped : ∀ fd c, s.connections.lookup fd = some c →
    (s.objects c).fd = fd ∧ ∃ file, s.kernel.files fd = some file ∧ file.id = c ∧
      file.pollable = true ∧ (file.peer = some (s.address c) ∨ file.peer = none)
  /-- files are told apart by their identity, -/
  injective : ∀ fd fd' file file', s.kernel.files fd = some file → s.kernel.files fd' = some file' →
    file.id = file'.id → fd = fd'
  fresh : ∀ fd file, s.kernel.files fd = some file → file.id < s.nextId
  taskFresh : ∀ c ∈ s.tasks, c < s.nextId
  /-- a task's socket that is still open is still in `connections_`, -/
  taskMapped : ∀ c ∈ s.tasks, ∀ fd file, s.kernel.files fd = some file → file.id = c →
    s.connections.lookup fd = some c
  /-- only open files are registered, -/
  registered : ∀ fd, s.kernel.files fd = none → s.kernel.registered fd = none
  /-- and writers have data. -/
  writers : s.WritersHaveData

theorem wired_init (world : σ) : Wired ({ world := world } : LoopState σ) := by
  constructor
  · intro fd c h
    cases h
  · intro fd fd' file file' h
    cases h
  · intro fd file h
    cases h
  · intro c h
    cases h
  · intro c h
    cases h
  · intro fd _
    rfl
  · intro fd c h
    cases h

end LoopState

end VeloxServe
