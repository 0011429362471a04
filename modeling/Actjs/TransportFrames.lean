import Actjs.ClientRpc
import Mathlib.Data.Int.Notation

/-!
# The frames that a transport holds

`send` holds a frame while the socket is not open, and `handleOpen` hands what is held to
the socket, in order. `TransportRun` is a transport with the frames that it has held, and
those of them that it has handed to a socket.

When the socket throws on a frame, `handleOpen` holds that one again, for the next open. It
has taken the others out as well by then, and these are gone. So nothing is lost as long as
a socket throws on none but the last of the frames that are held, and `kept_iff` says that
otherwise something is.
-/

/-- **What happens to a transport next**, until it is destroyed. -/
inductive TransportEvent (F : Type) where
  /-- `send`. `accepts` is whether an open socket takes the frame, or throws. -/
  | send (frame : F) (accepts : Bool)
  | connect
  /-- The socket opens. It takes so many of the frames that are held before it throws. -/
  | opens (accepts : ℕ)
  | closes (clean : Bool)
  /-- The timer for a reconnect fires. -/
  | reconnect

/-- **A transport and its frames.** -/
structure TransportRun (F : Type) where
  transport : Transport F
  /-- The frames that `send` held, in the order of the calls. -/
  held : List F
  /-- The frames that were held and handed to a socket since, in this order. -/
  handed : List F

namespace TransportRun

variable {F : Type} {s s' : TransportRun F}

def init : TransportRun F := ⟨.init, [], []⟩

/-- How many frames `handleOpen` hands over. Without a socket there is nothing that could
take one. -/
def takes (s : TransportRun F) (accepts : ℕ) : ℕ :=
  match s.transport.socket with
  | none => 0
  | some _ => accepts

def send (s : TransportRun F) (frame : F) (accepts : Bool) : TransportRun F :=
  match s.transport.send frame accepts with
  | (t, .queued) => { s with transport := t, held := s.held ++ [frame] }
  | (t, _) => { s with transport := t }

def opens (s : TransportRun F) (accepts : ℕ) : TransportRun F :=
  { s with
    transport := s.transport.handleOpen (s.takes accepts)
    handed := s.handed ++ s.transport.outbound.take (s.takes accepts) }

def step (s : TransportRun F) : TransportEvent F → Option (TransportRun F)
  | .send frame accepts => some (s.send frame accepts)
  | .connect => some { s with transport := s.transport.connect }
  | .opens accepts => some (s.opens accepts)
  | .closes clean => some { s with transport := s.transport.handleClose clean }
  | .reconnect =>
    if s.transport.timers = 0 then none
    else some { s with transport := s.transport.reconnect }

/-- **Every frame that was held is held yet, or was handed to a socket**, in order, once,
and before those that are held yet. -/
def Kept (s : TransportRun F) : Prop := s.held = s.handed ++ s.transport.outbound

/-- **A socket that opens throws on none but the last of the frames that are held.** -/
def drainsAll (s : TransportRun F) : TransportEvent F → Bool
  | .opens accepts => decide (s.transport.outbound.length ≤ s.takes accepts + 1)
  | _ => true

end TransportRun

namespace Transport

variable {F : Type} (t : Transport F)

@[simp]
theorem outbound_connect : t.connect.outbound = t.outbound := by
  unfold connect
  split
  · rfl
  · rfl

@[simp]
theorem outbound_reconnect : t.reconnect.outbound = t.outbound := by
  unfold reconnect
  split
  · rfl
  · exact outbound_connect _

end Transport

namespace TransportRun

variable {F : Type} {s s' : TransportRun F}

/-! ## One event -/

/-- **What an event does with the frames.** -/
inductive Moves (s s' : TransportRun F) : TransportEvent F → Prop
  | stays {e : TransportEvent F} : s'.held = s.held → s'.handed = s.handed →
      s'.transport.outbound = s.transport.outbound → (∀ n, e ≠ .opens n) → Moves s s' e
  | holds {frame : F} {accepts : Bool} : s'.held = s.held ++ [frame] → s'.handed = s.handed →
      s'.transport.outbound = s.transport.outbound ++ [frame] →
      Moves s s' (.send frame accepts)
  | drains {accepts : ℕ} : s'.held = s.held →
      s'.handed = s.handed ++ s.transport.outbound.take (s.takes accepts) →
      s'.transport.outbound = (s.transport.outbound.drop (s.takes accepts)).take 1 →
      Moves s s' (.opens accepts)

theorem moves_send (hd : s.transport.destroyed = false) (frame : F) (accepts : Bool) :
    Moves s (s.send frame accepts) (.send frame accepts) := by
  unfold send
  cases hs : s.transport.send frame accepts with
  | mk t sent =>
    cases hs ▸ s.transport.sends frame accepts with
    | written _ _ => exact .stays rfl rfl rfl (fun _ => by simp)
    | refused _ => exact .stays rfl rfl rfl (fun _ => by simp)
    | held => exact .holds rfl rfl rfl
    | connects _ => exact .holds rfl rfl (Transport.outbound_connect _)
    | tooLate hd' => exact absurd (hd.symm.trans hd') (by simp)

theorem moves_step (hd : s.transport.destroyed = false) {e : TransportEvent F}
    (h : s.step e = some s') : Moves s s' e := by
  cases e with
  | send frame accepts =>
    obtain rfl := Option.some.inj h
    exact moves_send hd frame accepts
  | connect =>
    obtain rfl := Option.some.inj h
    exact .stays rfl rfl (Transport.outbound_connect _) (fun _ => by simp)
  | opens accepts =>
    obtain rfl := Option.some.inj h
    exact .drains rfl rfl rfl
  | closes clean =>
    obtain rfl := Option.some.inj h
    exact .stays rfl rfl rfl (fun _ => by simp)
  | reconnect =>
    rw [step, Option.ite_none_left_eq_some] at h
    obtain rfl := Option.some.inj h.2
    exact .stays rfl rfl (Transport.outbound_reconnect _) (fun _ => by simp)

/-- No event destroys the transport. -/
theorem destroyed_step {e : TransportEvent F} (h : s.step e = some s') :
    s'.transport.destroyed = s.transport.destroyed := by
  have hconnect : ∀ t : Transport F, t.connect.destroyed = t.destroyed := fun t => by
    unfold Transport.connect
    split
    · rfl
    · rfl
  cases e with
  | send frame accepts =>
    obtain rfl := Option.some.inj h
    unfold send
    cases hs : s.transport.send frame accepts with
    | mk t sent =>
      cases hs ▸ s.transport.sends frame accepts with
      | connects _ => exact hconnect _
      | _ => rfl
  | connect =>
    obtain rfl := Option.some.inj h
    exact hconnect _
  | reconnect =>
    rw [step, Option.ite_none_left_eq_some] at h
    obtain rfl := Option.some.inj h.2
    show s.transport.reconnect.destroyed = _
    unfold Transport.reconnect
    split
    · rfl
    · exact hconnect _
  | _ =>
    obtain rfl := Option.some.inj h
    rfl

/-! ## What is kept

The frames that are lost are counted. A step adds to them only where a socket
throws on a frame that is not the last. -/

/-- How many frames are neither held yet nor handed to a socket. -/
def lost (s : TransportRun F) : ℤ :=
  s.held.length - s.handed.length - s.transport.outbound.length

theorem Kept.lost_eq_zero (h : s.Kept) : s.lost = 0 := by
  unfold lost
  rw [h, List.length_append]
  omega

theorem Kept.moves {e : TransportEvent F} (h : s.Kept) (hG : s.drainsAll e = true)
    (hm : Moves s s' e) : s'.Kept := by
  unfold Kept at h ⊢
  cases hm with
  | stays hheld hhanded hout _ => rw [hheld, hhanded, hout, h]
  | holds hheld hhanded hout => rw [hheld, hhanded, hout, h, List.append_assoc]
  | @drains accepts hheld hhanded hout =>
    have hlast : (s.transport.outbound.drop (s.takes accepts)).length ≤ 1 := by
      rw [List.length_drop]
      have hle := of_decide_eq_true hG
      omega
    rw [hheld, hhanded, hout, h, List.take_of_length_le hlast, List.append_assoc,
      List.take_append_drop]

/-- What is lost stays lost. -/
theorem lost_le_moves {e : TransportEvent F} (hm : Moves s s' e) : s.lost ≤ s'.lost := by
  unfold lost
  cases hm with
  | stays hheld hhanded hout _ =>
    have hlost := congrArg List.length hout
    rw [hheld, hhanded]
    omega
  | holds hheld hhanded hout =>
    rw [hheld, hhanded, hout, List.length_append, List.length_append]
    omega
  | drains hheld hhanded hout =>
    rw [hheld, hhanded, hout, List.length_append, List.length_take, List.length_take,
      List.length_drop]
    omega

/-- **A frame after the one that the socket throws on is lost.** -/
theorem lost_lt_moves {e : TransportEvent F} (hG : ¬s.drainsAll e = true)
    (hm : Moves s s' e) : s.lost < s'.lost := by
  unfold lost
  cases hm with
  | stays _ _ _ hopens =>
    refine absurd ?_ hG
    cases e with
    | opens n => exact absurd rfl (hopens n)
    | _ => rfl
  | holds _ _ _ => exact absurd rfl hG
  | @drains accepts hheld hhanded hout =>
    have hlt : s.takes accepts + 1 < s.transport.outbound.length := by
      rw [drainsAll, decide_eq_true_iff] at hG
      omega
    rw [hheld, hhanded, hout, List.length_append, List.length_take, List.length_take,
      List.length_drop]
    omega

theorem live_run {es : List (TransportEvent F)} (hd : s.transport.destroyed = false)
    (h : TransitionSystem.run step s es = some s') : s'.transport.destroyed = false :=
  TransitionSystem.run_invariant' step (P := fun s => s.transport.destroyed = false)
    (fun _ _ _ hd hs => (destroyed_step hs).trans hd) hd h

theorem lost_le_run {es : List (TransportEvent F)} (hd : s.transport.destroyed = false)
    (h : TransitionSystem.run step s es = some s') : s.lost ≤ s'.lost := by
  induction es generalizing s with
  | nil =>
    obtain rfl := Option.some.inj h
    exact Int.le_refl _
  | cons e es ih =>
    rw [TransitionSystem.run_cons, Option.bind_eq_some_iff] at h
    obtain ⟨t, ht, h⟩ := h
    exact Int.le_trans (lost_le_moves (moves_step hd ht)) (ih ((destroyed_step ht).trans hd) h)

/-- **The transport keeps the frames that it holds** as long as no socket throws on one
before the last of them, and not longer. -/
theorem kept_iff {es : List (TransportEvent F)}
    (h : TransitionSystem.run step init es = some s) :
    s.Kept ↔ TransitionSystem.Along step (fun t e => t.drainsAll e = true) init es := by
  constructor
  · intro hkept
    by_contra hG
    obtain ⟨bs, e, cs, t, t', rfl, hbs, hGe, ht, hcs⟩ :=
      TransitionSystem.exists_of_not_along step h hG
    have hlive : t.transport.destroyed = false := live_run rfl hbs
    have hbefore : init.lost ≤ t.lost := lost_le_run rfl hbs
    have hat : t.lost < t'.lost := lost_lt_moves hGe (moves_step hlive ht)
    have hafter : t'.lost ≤ s.lost := lost_le_run ((destroyed_step ht).trans hlive) hcs
    have hinit : (init : TransportRun F).lost = 0 := rfl
    have hs : s.lost = 0 := hkept.lost_eq_zero
    omega
  · intro hG
    have hinit : (init : TransportRun F).Kept := rfl
    have hinv : s.transport.destroyed = false ∧ s.Kept :=
      TransitionSystem.run_invariant step
        (P := fun s => s.transport.destroyed = false ∧ s.Kept)
        (fun t e t' ht hGe hs => ⟨(destroyed_step hs).trans ht.1,
          ht.2.moves hGe (moves_step ht.1 hs)⟩) ⟨rfl, hinit⟩ hG h
    exact hinv.2

/-! ### A socket that throws on the first of three -/

/-- Three frames are sent before the socket opens, and it throws on the first. -/
def threeFrames : List (TransportEvent String) :=
  [.send "a" true, .send "b" true, .send "c" true, .opens 0]

/-- It throws on the last, and the next one takes it. -/
def lastRefused : List (TransportEvent String) :=
  [.send "a" true, .send "b" true, .opens 1, .closes false, .reconnect, .send "c" true,
    .opens 2]

theorem kept_iff_lastRefused :
    ∃ s, TransitionSystem.run step init lastRefused = some s ∧ s.Kept
      ∧ s.handed = ["a", "b", "c"] := by
  obtain ⟨s, hs⟩ : ∃ s, TransitionSystem.run step init lastRefused = some s := ⟨_, rfl⟩
  refine ⟨s, hs, (kept_iff hs).mpr (by decide), ?_⟩
  obtain rfl := Option.some.inj hs
  rfl

theorem not_kept : ¬∀ (es : List (TransportEvent String)) (s : TransportRun String),
    TransitionSystem.run step init es = some s → s.Kept := by
  intro h
  have hkept := h threeFrames _ rfl
  exact absurd hkept (by simp [Kept, init, send, opens, takes, Transport.init,
    Transport.send, Transport.push, Transport.connect, Transport.handleOpen])

end TransportRun
