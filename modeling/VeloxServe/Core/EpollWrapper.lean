import VeloxServe.Core.ConnectionSystem
import Mathlib.Logic.Function.Basic

/-! # Descriptors and Epoll

    The part of the kernel a `Server` works with, and
    `src/core/epoll_wrapper.cpp` on it. A descriptor number stands for an open
    file as long as it is open; a number that has been closed may be given to
    another file later. The interest list of epoll goes by descriptor number,
    and an entry disappears when its file is closed.
-/

namespace VeloxServe

open StdString

/-- An open file of the server process. -/
structure Descriptor where
  /-- The identity of the file; unlike its number it is never used again. -/
  id : Nat
  /-- The remote address `getpeername` reports. -/
  peer : Option Bytes
  /-- Whether epoll can watch it; a regular file it cannot. -/
  pollable : Bool
  deriving DecidableEq

structure Kernel where
  files : Nat → Option Descriptor := fun _ => none
  registered : Nat → Option Interest := fun _ => none

namespace Kernel

/-- The kernel gives the number `fd` to a newly opened file. -/
def openFile (fd : Nat) (file : Descriptor) (k : Kernel) : Kernel :=
  { k with files := Function.update k.files fd (some file) }

/-- `close(fd)`. -/
def close (fd : Nat) (k : Kernel) : Kernel where
  files := Function.update k.files fd none
  registered := Function.update k.registered fd none

def register (fd : Nat) (events : Interest) (k : Kernel) : Kernel :=
  { k with registered := Function.update k.registered fd (some events) }

end Kernel

/-- The errors of `epoll_ctl` on descriptors. -/
inductive Errno where
  | badFd
  | exist
  | noEntry
  | notPermitted
  deriving DecidableEq

/-- `epoll_ctl` with `EPOLL_CTL_ADD`. -/
def epollCtlAdd (fd : Nat) (events : Interest) (k : Kernel) : Except Errno Kernel :=
  match k.files fd with
  | none => .error .badFd
  | some file =>
    if !file.pollable then .error .notPermitted
    else match k.registered fd with
      | some _ => .error .exist
      | none => .ok (k.register fd events)

/-- `epoll_ctl` with `EPOLL_CTL_MOD`. -/
def epollCtlMod (fd : Nat) (events : Interest) (k : Kernel) : Except Errno Kernel :=
  match k.files fd with
  | none => .error .badFd
  | some file =>
    if !file.pollable then .error .notPermitted
    else match k.registered fd with
      | some _ => .ok (k.register fd events)
      | none => .error .noEntry

/-! `add` and `modify` fall back to each other; the fuel bounds how often. -/
namespace EpollWrapper

mutual

/-- Start watching; an entry that is there already is modified. -/
def add : Nat → Nat → Interest → Kernel → Bool × Kernel
  | 0, _, _, k => (false, k)
  | fuel + 1, fd, events, k =>
    match epollCtlAdd fd events k with
    | .ok k => (true, k)
    | .error .exist => modify fuel fd events k
    | .error _ => (false, k)

/-- Change the events; an entry that is not there yet is added. -/
def modify : Nat → Nat → Interest → Kernel → Bool × Kernel
  | 0, _, _, k => (false, k)
  | fuel + 1, fd, events, k =>
    match epollCtlMod fd events k with
    | .ok k => (true, k)
    | .error .noEntry => add fuel fd events k
    | .error _ => (false, k)

end

/-- Whether epoll can watch the number at present. -/
def watchable (fd : Nat) (k : Kernel) : Bool := (k.files fd).any Descriptor.pollable

/-- **What the two calls do**: one fallback is enough, and afterwards the
    number is registered for the events if there is a file epoll can watch. -/
theorem add_modify_eq (fuel fd : Nat) (events : Interest) (k : Kernel) :
    add (fuel + 2) fd events k =
      (if watchable fd k then (true, k.register fd events) else (false, k)) ∧
    modify (fuel + 2) fd events k =
      (if watchable fd k then (true, k.register fd events) else (false, k)) := by
  unfold watchable
  rcases hfile : k.files fd with _ | file
  · constructor
    · simp [add, epollCtlAdd, hfile]
    · simp [modify, epollCtlMod, hfile]
  · cases hpoll : file.pollable with
    | false =>
      constructor
      · simp [add, epollCtlAdd, hfile, hpoll]
      · simp [modify, epollCtlMod, hfile, hpoll]
    | true =>
      rcases hreg : k.registered fd with _ | old
      · constructor
        · simp [add, epollCtlAdd, hfile, hpoll, hreg]
        · simp [modify, epollCtlMod, add, epollCtlAdd, hfile, hpoll, hreg]
      · constructor
        · simp [add, epollCtlAdd, modify, epollCtlMod, hfile, hpoll, hreg]
        · simp [modify, epollCtlMod, hfile, hpoll, hreg]

/-- Enough fuel for `add` and `modify`. -/
def fallbacks : Nat := 2

theorem modify_eq (fd : Nat) (events : Interest) (k : Kernel) :
    (modify fallbacks fd events k).2 = if watchable fd k then k.register fd events else k := by
  have hmodify := (add_modify_eq 0 fd events k).2
  unfold fallbacks
  rw [hmodify]
  split <;> rfl

theorem add_eq (fd : Nat) (events : Interest) (k : Kernel) :
    add fallbacks fd events k =
      if watchable fd k then (true, k.register fd events) else (false, k) :=
  (add_modify_eq 0 fd events k).1

end EpollWrapper

end VeloxServe
