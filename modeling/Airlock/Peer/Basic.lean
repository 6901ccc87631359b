import Airlock.Codec.Basic
import Airlock.Channel.Link

/-!
# Peers

A peer is the program on the far end of a link. It moves by pulling and writing units, which may
have to wait, and by closing or aborting the sink; in the end it finishes with a result. Between two
units that it pulls a peer makes only so many moves as its rank allows, so it always comes to wait or
to an end by itself. What the client does meanwhile is not decided here.
-/

set_option autoImplicit false

namespace Airlock

inductive Move (τ : Type) where
  | pull (next : Option Bytes → τ)
  | write (unit : Bytes) (next : Except Error Unit → τ)
  | close (next : τ)
  | abort (reason : String) (next : τ)
  | finish (result : Except Error Unit)

namespace Move

variable {α β : Type}

/-- The same move, going on with states seen through a function. -/
def map (f : α → β) : Move α → Move β
  | .pull next => .pull (f ∘ next)
  | .write unit next => .write unit (f ∘ next)
  | .close next => .close (f next)
  | .abort reason next => .abort reason (f next)
  | .finish result => .finish result

private theorem map_eq_pull {f : α → β} {move : Move α} {next} (mapped : move.map f = .pull next) :
    ∃ inner, move = .pull inner ∧ f ∘ inner = next := by
  cases move <;> simp_all [map]

private theorem map_eq_write {f : α → β} {move : Move α} {unit next}
    (mapped : move.map f = .write unit next) :
    ∃ inner, move = .write unit inner ∧ f ∘ inner = next := by
  cases move <;> simp_all [map]

private theorem map_eq_close {f : α → β} {move : Move α} {next}
    (mapped : move.map f = .close next) :
    ∃ inner, move = .close inner ∧ f inner = next := by
  cases move <;> simp_all [map]

private theorem map_eq_abort {f : α → β} {move : Move α} {reason next}
    (mapped : move.map f = .abort reason next) :
    ∃ inner, move = .abort reason inner ∧ f inner = next := by
  cases move <;> simp_all [map]

end Move

/-- The moves of a peer by its state, over a link of the given codec. -/
structure Peer (τ : Type) where
  move : Codec → τ → Move τ
  /-- how many moves are left before a unit has to be pulled -/
  rank : τ → Nat
  rank_pull : ∀ {codec state next}, move codec state = .pull next → rank (next none) < rank state
  rank_write : ∀ {codec state unit next}, move codec state = .write unit next →
    ∀ result, rank (next result) < rank state
  rank_close : ∀ {codec state next}, move codec state = .close next → rank next < rank state
  rank_abort : ∀ {codec state reason next}, move codec state = .abort reason next →
    rank next < rank state

inductive Advance (τ : Type) where
  | moved (state : τ) (link : Link)
  | waiting
  | finished (result : Except Error Unit)

namespace Peer

variable {τ : Type}

/-- Makes one move, if nothing has to be waited for. -/
def advance (peer : Peer τ) (codec : Codec) (state : τ) (link : Link) : Advance τ :=
  match peer.move codec state with
  | .pull next =>
    match link.pull with
    | (.ready unit?, link) => .moved (next unit?) link
    | (.waiting, _) => .waiting
  | .write unit next =>
    match link.write unit with
    | (.ready result, link) => .moved (next result) link
    | (.waiting, _) => .waiting
  | .close next => .moved next link.closeSink
  | .abort reason next => .moved next (link.abort reason)
  | .finish result => .finished result

/-- A move takes a unit out of the queue, or else it lowers the rank. -/
theorem advance_decreases {peer : Peer τ} {codec : Codec} {state next : τ} {link after : Link}
    (moved : peer.advance codec state link = .moved next after) :
    after.queue.size < link.queue.size ∨
      after.queue.size = link.queue.size ∧ peer.rank next < peer.rank state := by
  unfold advance at moved
  split at moved
  · rename_i move
    split at moved
    · rename_i unit? rest pulled
      simp only [Advance.moved.injEq] at moved
      obtain ⟨rfl, rfl⟩ := moved
      cases unit? with
      | none => exact .inr ⟨by rw [Link.queue_of_pull_none pulled], peer.rank_pull move⟩
      | some unit => exact .inl (by simp [Queue.size, Link.units_pull pulled])
    · cases moved
  · rename_i move
    split at moved
    · rename_i result rest written
      simp only [Advance.moved.injEq] at moved
      obtain ⟨rfl, rfl⟩ := moved
      exact .inr ⟨by rw [Link.queue_of_write written], peer.rank_write move result⟩
    · cases moved
  · rename_i move
    simp only [Advance.moved.injEq] at moved
    obtain ⟨rfl, rfl⟩ := moved
    exact .inr ⟨rfl, peer.rank_close move⟩
  · rename_i move
    simp only [Advance.moved.injEq] at moved
    obtain ⟨rfl, rfl⟩ := moved
    exact .inr ⟨rfl, peer.rank_abort move⟩
  · cases moved

/-- Moves on until the peer has to wait or is finished. -/
def run (peer : Peer τ) (codec : Codec) (state : τ) (link : Link) :
    Poll (Except Error Unit) × τ × Link :=
  match _advanced : peer.advance codec state link with
  | .moved state link => run peer codec state link
  | .waiting => (.waiting, state, link)
  | .finished result => (.ready result, state, link)
termination_by (link.queue.size, peer.rank state)
decreasing_by
  rcases advance_decreases _advanced with fewer | ⟨same, lower⟩
  · exact Prod.Lex.left _ _ fewer
  · rw [same]
    exact Prod.Lex.right _ lower

def either {α β : Type} (first : Peer α) (second : Peer β) : Peer (α ⊕ β) where
  move codec
    | .inl state => (first.move codec state).map .inl
    | .inr state => (second.move codec state).map .inr
  rank
    | .inl state => first.rank state
    | .inr state => second.rank state
  rank_pull {_ state _} move := by
    cases state with
    | inl state =>
      obtain ⟨inner, here, rfl⟩ := Move.map_eq_pull move
      exact first.rank_pull here
    | inr state =>
      obtain ⟨inner, here, rfl⟩ := Move.map_eq_pull move
      exact second.rank_pull here
  rank_write {_ state _ _} move result := by
    cases state with
    | inl state =>
      obtain ⟨inner, here, rfl⟩ := Move.map_eq_write move
      exact first.rank_write here result
    | inr state =>
      obtain ⟨inner, here, rfl⟩ := Move.map_eq_write move
      exact second.rank_write here result
  rank_close {_ state _} move := by
    cases state with
    | inl state =>
      obtain ⟨inner, here, rfl⟩ := Move.map_eq_close move
      exact first.rank_close here
    | inr state =>
      obtain ⟨inner, here, rfl⟩ := Move.map_eq_close move
      exact second.rank_close here
  rank_abort {_ state _ _} move := by
    cases state with
    | inl state =>
      obtain ⟨inner, here, rfl⟩ := Move.map_eq_abort move
      exact first.rank_abort here
    | inr state =>
      obtain ⟨inner, here, rfl⟩ := Move.map_eq_abort move
      exact second.rank_abort here

end Peer

end Airlock
