import Mathlib.Tactic.Tauto
import WebServer.Lib.ByteString

/-! # Channels and event masks

A channel keeps the events its owner asks for, the events that occurred and the mask last handed
to `epoll_ctl`. `Channel.handleEvents` is generic in the state its callbacks act on: connections,
the wake-up descriptor and the acceptor instantiate it with their own handlers.
-/

namespace WebServer

open Lib

/-- An `epoll` event mask. -/
abbrev Mask := BitVec 32

def EPOLLIN : Mask := 0x001
def EPOLLPRI : Mask := 0x002
def EPOLLOUT : Mask := 0x004
def EPOLLERR : Mask := 0x008
def EPOLLHUP : Mask := 0x010
def EPOLLRDHUP : Mask := 0x2000
def EPOLLONESHOT : Mask := 0x40000000
def EPOLLET : Mask := 0x80000000

namespace Mask

/-- The C condition `mask & flag`. -/
def has (mask flag : Mask) : Bool := mask &&& flag != 0#32

@[simp] theorem zero_has (flag : Mask) : has 0#32 flag = false := by
  simp [has]

theorem has_or (mask other flag : Mask) :
    has (mask ||| other) flag = (has mask flag || has other flag) := by
  have split : (mask ||| other) &&& flag = (mask &&& flag) ||| (other &&& flag) := by
    ext i
    simp only [BitVec.getElem_and, BitVec.getElem_or, Bool.and_or_distrib_right]
  rw [Bool.eq_iff_iff]
  simp only [has, split, bne_iff_ne, ne_eq, Bool.or_eq_true, BitVec.or_eq_zero_iff]
  tauto

theorem has_comm (mask flag : Mask) : has mask flag = has flag mask := by
  unfold has
  rw [BitVec.and_comm]

theorem has_flag_or (mask flag other : Mask) :
    has mask (flag ||| other) = (has mask flag || has mask other) := by
  rw [has_comm, has_or, has_comm flag, has_comm other]

@[simp] theorem or_self_has (mask flag : Mask) :
    has (mask ||| flag) flag = (has mask flag || flag != 0#32) := by
  rw [has_or]
  simp [has]

end Mask

structure Channel where
  fd : Nat
  events : Mask
  revents : Mask
  lastEvents : Mask
  deriving Repr, DecidableEq

namespace Channel

/-- `Channel(loop, fd)`. -/
def new (fd : Nat) : Channel := ⟨fd, 0#32, 0#32, 0#32⟩

/-- `EqualAndUpdateLastEvents`. -/
def equalAndUpdateLastEvents (c : Channel) : Bool × Channel :=
  (c.lastEvents == c.events, { c with lastEvents := c.events })

/-- What `EpollMod` does with `epoll_ctl`. -/
inductive CtlMod where
  /-- The call is left out: the mask is the one last handed over. -/
  | elided
  | registered (mask : Mask)
  | failed
  deriving Repr, DecidableEq

/-- The registration part of `EpollMod`; `ctl` tells whether `epoll_ctl` would succeed. -/
def epollMod (ctl : Bool) (c : Channel) : CtlMod × Channel :=
  let (equal, c) := c.equalAndUpdateLastEvents
  (if equal then .elided else if ctl then .registered c.events else .failed, c)

/-- The callbacks of a channel over its owner's state, and how they set `events_` there. -/
structure Callbacks (σ : Type) where
  setEvents : Mask → σ → σ
  readHandler : Option (σ → Except Fault σ) := none
  writeHandler : Option (σ → Except Fault σ) := none
  errorHandler : Option (σ → Except Fault σ) := none
  connHandler : Option (σ → Except Fault σ) := none

/-- Run a callback that is set; an empty one does nothing. -/
def invoke {σ : Type} (handler : Option (σ → Except Fault σ)) (s : σ) : Except Fault σ :=
  match handler with
  | some run => run s
  | none => .ok s

/-- `HandleEvents`. -/
def handleEvents {σ : Type} (cb : Callbacks σ) (revents : Mask) (s : σ) : Except Fault σ :=
  let s := cb.setEvents 0#32 s
  if revents.has EPOLLHUP && !revents.has EPOLLIN then .ok (cb.setEvents 0#32 s)
  else if revents.has EPOLLERR && cb.errorHandler.isSome then
    (invoke cb.errorHandler s).map (cb.setEvents 0#32)
  else do
    let s ← if revents.has (EPOLLIN ||| EPOLLPRI ||| EPOLLRDHUP) then invoke cb.readHandler s
      else .ok s
    let s ← if revents.has EPOLLOUT then invoke cb.writeHandler s else .ok s
    invoke cb.connHandler s

end Channel

end WebServer
