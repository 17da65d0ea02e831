import Scenara.ObjectStore.Preserved

/-!
# An immutable map
-/

namespace Scenara.ObjectStore

open Scenara.Core

variable {α D : Type} {codec : Codec α D} {x : State α D} {c : Call α D} {i : Nat} {d : Disk α}
  {phase : Phase α D}

/-! ## Every run -/

theorem Moves.served (h : Inv codec x) (hi : x.calls[i]? = some c) (hm : Moves codec x c d phase) :
    Served codec x (x.next i c d phase) c phase := by
  have hothers : ∀ key, key ≠ c.key → Apart c.key key → Apart key c.key →
      yields codec d key = yields codec x.disk key :=
    fun key hne hapart hapart' => (hm.spares h (List.mem_of_getElem? hi) hne hapart hapart').yields
  cases hm with
  | same _ _ _ _ hanswers =>
    refine ⟨hothers, hanswers.bytes, hanswers.metadata, fun upload metadata hop hphase =>
      (hanswers.stored upload metadata hop hphase).1, fun upload error hop hphase => ?_⟩
    obtain ⟨herror, hdata⟩ := hanswers.refused upload error hop hphase
    exact ⟨herror, rfl, hdata⟩
  | _ =>
    exact ⟨hothers, nofun, nofun, nofun, nofun⟩

variable [DecidableEq D]

theorem Inv.step (hsha : Function.Injective codec.sha256) (h : Inv codec x) {act : Act α}
    {y : State α D} (hlawful : Lawful x act) (hs : step codec x act = some y) : Inv codec y := by
  cases act with
  | call =>
    dsimp only [ObjectStore.step] at hs
    split at hs <;> cases hs
    exact h.called hlawful.1 hlawful.2
  | go i n =>
    dsimp only [ObjectStore.step] at hs
    split at hs
    · rename_i c hi
      split at hs <;> cases hs
      rename_i hgo
      exact h.moves hi (h.go_moves hsha hi (hlawful c hi) hgo)
    · cases hs
  | crash =>
    cases hs
    exact h.crashed hlawful

/-- A byte, or the beginning of a metadata document. -/
inductive Symbol where
  | byte (n : Nat)
  | head (sizeBytes : Nat) (contentType : String) (retentionCategory : Option String) (length : Nat)
  deriving DecidableEq

/-- The digest of some bytes is the bytes. -/
def plainCodec : Codec Symbol (List Symbol) where
  sha256 := id
  dump m := .head m.sizeBytes m.contentType m.retentionCategory m.sha256.length :: m.sha256
  load
    | .head sizeBytes contentType retentionCategory length :: rest =>
      if rest.length = length then some ⟨sizeBytes, rest, contentType, retentionCategory⟩ else none
    | _ => none
  load_dump m := if_pos rfl
  load_cut m w hcut hne := by
    cases w with
    | nil => rfl
    | cons a w =>
      obtain ⟨rfl, hrest⟩ := List.cons_prefix_cons.1 hcut
      refine if_neg fun hlength => hne ?_
      rw [hrest.eq_of_length hlength]

/-- Another one. -/
def oneByte : Upload Symbol := ⟨[.byte 3], "text/plain", none⟩

end Scenara.ObjectStore
