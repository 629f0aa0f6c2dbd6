import VeloxServe.Framework.StdString
import VeloxServe.Framework.System

/-! # Load Balancer

    `include/modules/load_balancer.h` and `src/modules/load_balancer.cpp`: the
    round robin over the backends that are alive, and what a health check does
    to the backend it is made of. A pointer to a backend is its position.
    `current_index_` is a 32-bit `int` that wraps, and is converted to `size_t`
    before the remainder is taken.
-/

namespace VeloxServe

open StdString

structure Backend where
  host : Bytes
  port : Int
  isAlive : Bool := true
  /-- As a number; `counter` is the `std::atomic<int>`. -/
  activeConnections : Int := 0
  totalRequests : BitVec 32 := 0
  failedChecks : BitVec 32 := 0
  deriving DecidableEq

/-- The 32 bits of `active_connections`: increments and decrements wrap, so that they
    hold the number modulo `2^32`. -/
def Backend.counter (backend : Backend) : BitVec 32 := BitVec.ofInt 32 backend.activeConnections

/-- The body of `health_check_loop` for one backend, with the result of its check. -/
def Backend.recordCheck (alive : Bool) (backend : Backend) : Backend :=
  if alive && !backend.isAlive then { backend with isAlive := true, failedChecks := 0 }
  else if !alive then
    let backend := { backend with failedChecks := backend.failedChecks + 1 }
    if 3 ≤ backend.failedChecks.toInt && backend.isAlive then { backend with isAlive := false }
    else backend
  else { backend with failedChecks := 0 }

structure LoadBalancer where
  backends : List Backend := []
  currentIndex : BitVec 32 := 0

namespace LoadBalancer

def addBackend (host : Bytes) (port : Int) (lb : LoadBalancer) : LoadBalancer :=
  { lb with backends := lb.backends ++ [{ host := host, port := port }] }

/-- Change the backend at a position. -/
def update (i : Nat) (f : Backend → Backend) (lb : LoadBalancer) : LoadBalancer :=
  { lb with backends := lb.backends.modify i f }

/-- `current_index_ % backends_.size()`, as `size_t` arithmetic has it. -/
def currentPosition (lb : LoadBalancer) : Nat :=
  (lb.currentIndex.signExtend 64).toNat % lb.backends.length

/-- The loop of `get_next`, with the number of tries left. -/
def getNextLoop : Nat → LoadBalancer → Option (Nat × Backend) × LoadBalancer
  | 0, lb => (none, lb)
  | left + 1, lb =>
    let idx := lb.currentPosition
    let lb := { lb with currentIndex := lb.currentIndex + 1 }
    match lb.backends[idx]? with
    | none => (none, lb)
    | some backend =>
      if backend.isAlive then
        (some (idx, backend), lb.update idx fun b =>
          { b with
            activeConnections := b.activeConnections + 1
            totalRequests := b.totalRequests + 1 })
      else getNextLoop left lb

/-- The next backend that is alive, with its position. -/
def getNext (lb : LoadBalancer) : Option (Nat × Backend) × LoadBalancer :=
  getNextLoop lb.backends.length lb

def release (backend : Nat) (lb : LoadBalancer) : LoadBalancer :=
  lb.update backend fun b => { b with activeConnections := b.activeConnections - 1 }

def markDown (backend : Nat) (lb : LoadBalancer) : LoadBalancer :=
  lb.update backend fun b => { b with isAlive := false }

/-- One backend of a round of `health_check_loop`. -/
def check (backend : Nat) (alive : Bool) (lb : LoadBalancer) : LoadBalancer :=
  lb.update backend (Backend.recordCheck alive)

def backendCount (lb : LoadBalancer) : Nat := lb.backends.length

def healthyCount (lb : LoadBalancer) : Nat := (lb.backends.filter (·.isAlive)).length

/-! ## Runs -/

/-- What threads do to a balancer. A round of health checks holds the lock that
    `get_next` takes, but `release` and `mark_down` take none and may come between
    two of its checks: each check is a step of its own. -/
inductive Operation where
  | getNext
  | release (backend : Nat)
  | markDown (backend : Nat)
  | check (backend : Nat) (alive : Bool)
  deriving DecidableEq

def apply (lb : LoadBalancer) : Operation → LoadBalancer
  | .getNext => lb.getNext.2
  | .release backend => lb.release backend
  | .markDown backend => lb.markDown backend
  | .check backend alive => lb.check backend alive

/-- A balancer as the server creates it from the addresses of an upstream. -/
def create (servers : List (Bytes × Int)) : LoadBalancer :=
  servers.foldl (fun lb server => lb.addBackend server.1 server.2) {}

theorem backends_create (servers : List (Bytes × Int)) :
    (create servers).backends =
      servers.map fun server => { host := server.1, port := server.2 } := by
  have hadded : ∀ lb : LoadBalancer,
      (servers.foldl (fun lb server => lb.addBackend server.1 server.2) lb).backends =
        lb.backends ++ servers.map fun server => { host := server.1, port := server.2 } := by
    induction servers with
    | nil => exact fun lb => (List.append_nil _).symm
    | cons server servers ih =>
      intro lb
      rw [List.foldl_cons, ih, List.map_cons]
      exact List.append_assoc _ _ _
  exact hadded {}

/-- Nothing has happened to a new backend. -/
theorem mem_create {servers : List (Bytes × Int)} {backend : Backend}
    (h : backend ∈ (create servers).backends) :
    ∃ host port, backend = { host := host, port := port } := by
  rw [backends_create] at h
  obtain ⟨server, -, hserver⟩ := List.mem_map.mp h
  exact ⟨server.1, server.2, hserver.symm⟩

/-- The balancers of a server under its operations, in any order. -/
def system : LTS.System LoadBalancer Operation :=
  LTS.System.ofStep (fun lb => ∃ servers, lb = create servers) fun lb op => some (lb.apply op)

theorem system_step (lb : LoadBalancer) (op : Operation) : system.step lb op (lb.apply op) := rfl

end LoadBalancer

end VeloxServe
