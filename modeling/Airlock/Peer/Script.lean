import Airlock.Peer.Basic

/-!
# Scripted peers

A scripted peer does a fixed list of deeds and then finishes with a fixed result. What it pulls is
of no account. A message that is refused ends the script with the error.
-/

set_option autoImplicit false

namespace Airlock

inductive Deed where
  | pull
  | send (message : Message)
  | abort (reason : String)

/-- A script by its name, with the deeds that are left and the result at the end. -/
structure Script.Playing where
  name : String
  deeds : List Deed
  result : Except Error Unit := .ok ()

namespace Script

def afterSend (rest : Playing) : Except Error Unit → Playing
  | .ok () => rest
  | .error error => { rest with deeds := [], result := .error error }

def peer : Peer Playing where
  move codec
    | ⟨_, [], result⟩ => .finish result
    | ⟨name, .pull :: rest, result⟩ => .pull fun _ => ⟨name, rest, result⟩
    | ⟨name, .send message :: rest, result⟩ =>
      .write (codec.encode message) (afterSend ⟨name, rest, result⟩)
    | ⟨name, .abort reason :: rest, result⟩ => .abort reason ⟨name, rest, result⟩
  rank state := state.deeds.length
  rank_pull {_ state _} move := by
    split at move <;> simp_all
    simp [← move]
  rank_write {_ state _ _} move result := by
    split at move <;> simp_all
    cases result <;> simp [← move.2, afterSend]
  rank_close {_ state _} move := by
    split at move <;> cases move
  rank_abort {_ state _ _} move := by
    split at move <;> simp_all
    simp [← move.2]

def quit : Playing :=
  ⟨"quit", [], .ok ()⟩

/-- Pulls some units, aborts the sink if there is a reason, and fails. -/
def fail (after : Nat) (reason? : Option String) : Playing :=
  ⟨"fail", List.replicate after .pull ++ (reason?.map .abort).toList,
    .error (.invalidState "peer failed")⟩

def abort (after : Nat) (reason : String) : Playing :=
  ⟨"abort", List.replicate after .pull ++ [.abort reason], .ok ()⟩

def flood (count : Nat) : Playing :=
  ⟨"flood", (List.range count).map fun n => .send (.notification "flood" (.ofNat n)), .ok ()⟩

end Script

end Airlock
