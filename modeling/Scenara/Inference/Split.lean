import Scenara.Inference.Model

/-!
# Outputs are split where the inputs were joined
-/

namespace Scenara.Inference

open Scenara.Core

variable {Row Out : Type} {arrays parts : List (NdArray Row)} {combined : NdArray Row}
    {executor : Executor Row Out}

/-- The output rows of a concatenated input are the concatenation of the outputs of its parts. -/
def RowWise (executor : Executor Row Out) : Prop :=
  ∀ parts combined, concatenate parts = some combined →
    ∀ j, concatenate (parts.map fun part => executor.run part j) = some (executor.run combined j)

/-- Outputs have as many rows as the input. -/
def RowForRow (executor : Executor Row Out) : Prop :=
  ∀ items shape dtype j, (executor.run (.rows items shape dtype) j).size = items.length

theorem rowsOf_eq_some {shape : List Nat} {dtype : String} {array : NdArray Row} {items : List Row}
    (h : array.rowsOf shape dtype = some items) : array = .rows items shape dtype := by
  cases array with
  | scalar => cases h
  | rows items' shape' dtype' =>
    change (if shape' = shape ∧ dtype' = dtype then some items' else none) = some items at h
    split at h
    · rename_i hsame
      cases h
      rw [hsame.1, hsame.2]
    · cases h

theorem mapM_rowsOf {shape : List Nat} {dtype : String} {blocks : List (List Row)}
    (h : arrays.mapM (NdArray.rowsOf shape dtype) = some blocks) :
    arrays = blocks.map fun items => .rows items shape dtype := by
  induction arrays generalizing blocks with
  | nil =>
    cases h
    rfl
  | cons _ _ ih =>
    rw [List.mapM_cons] at h
    obtain ⟨_, hitems, h⟩ := Option.bind_eq_some_iff.1 h
    obtain ⟨_, hrest, h⟩ := Option.bind_eq_some_iff.1 h
    cases h
    rw [rowsOf_eq_some hitems, ih hrest, List.map_cons]

theorem concatenate_eq_some (h : concatenate arrays = some combined) :
    ∃ shape dtype, ∃ blocks : List (List Row),
    arrays = blocks.map (fun items => .rows items shape dtype) ∧
      combined = .rows blocks.flatten shape dtype := by
  unfold concatenate at h
  split at h
  · rename_i first shape dtype arrays
    obtain ⟨rest, hrest, hcombined⟩ := Option.bind_eq_some_iff.1 h
    refine ⟨shape, dtype, first :: rest, ?_, (Option.some.inj hcombined).symm⟩
    rw [mapM_rowsOf hrest]
    rfl
  · cases h

theorem concatenate_blocks (shape : List Nat) (dtype : String) (first : List Row)
    (blocks : List (List Row)) :
    concatenate ((first :: blocks).map fun items => .rows items shape dtype) =
      some (.rows (first :: blocks).flatten shape dtype) := by
  have hrows : (blocks.map fun items => NdArray.rows items shape dtype).mapM
      (NdArray.rowsOf shape dtype) =
      some blocks := by
    induction blocks with
    | nil => rfl
    | cons _ _ ih =>
      rw [List.map_cons, List.mapM_cons, ih]
      simp [NdArray.rowsOf]
  rw [List.map_cons, concatenate, hrows]
  rfl

theorem slice_between (done items rest : List Out) :
    slice done.length (done.length + items.length) (done ++ (items ++ rest)) = items := by
  unfold slice
  rw [List.take_append, List.drop_append]
  simp

theorem grouped_eq {n : Nat} (run : NdArray Row → Fin n → NdArray Out) (shape : Fin n → List Nat)
    (dtype : Fin n → String) (done : Fin n → List Out) (blocks : Fin n → List (List Out))
    (start : Nat) (hstart : ∀ j, (done j).length = start)
    (hparts : ∀ j, (parts.map fun part => run part j) = (blocks j).map fun items =>
      .rows items (shape j) (dtype j))
    (hsizes : ∀ part ∈ parts, ∀ j, (run part j).size = part.size) :
    grouped (List.ofFn fun j => .rows (done j ++ (blocks j).flatten) (shape j) (dtype j)) start
      (parts.map NdArray.size) = parts.map fun part => List.ofFn (run part) := by
  induction parts generalizing done blocks start with
  | nil => rfl
  | cons part parts ih =>
    have hsplit : ∀ j, ∃ items rest, blocks j = items :: rest ∧
        run part j = .rows items (shape j) (dtype j) ∧
        (parts.map fun part => run part j) = rest.map fun items =>
          .rows items (shape j) (dtype j) := by
      intro j
      have hj := hparts j
      cases hb : blocks j with
      | nil =>
        simp [hb] at hj
      | cons items rest =>
        rw [hb, List.map_cons, List.map_cons, List.cons.injEq] at hj
        exact ⟨items, rest, rfl, hj.1, hj.2⟩
    choose items rest hblocks hrun hrest using hsplit
    have hlength : ∀ j, (items j).length = part.size := fun j => by
      rw [← hsizes part List.mem_cons_self j, hrun j]
      rfl
    have houtputs : (fun j => NdArray.rows (done j ++ (blocks j).flatten) (shape j) (dtype j)) =
        fun j => .rows ((done j ++ items j) ++ (rest j).flatten) (shape j) (dtype j) := by
      funext j
      rw [hblocks j, List.flatten_cons, List.append_assoc]
    rw [List.map_cons, List.map_cons, grouped, houtputs]
    congr 1
    · rw [List.map_ofFn]
      congr 1
      funext j
      have hslice := slice_between (done j) (items j) (rest j).flatten
      rw [hstart j, hlength j, ← List.append_assoc] at hslice
      rw [hrun j, Function.comp_apply, NdArray.slice, hslice]
    · refine ih (fun j => done j ++ items j) rest (start + part.size) (fun j => ?_) hrest
        fun part hpart => hsizes part (List.mem_cons_of_mem _ hpart)
      rw [List.length_append, hstart j, hlength j]

theorem splitOutputs_outputs (hrowWise : RowWise executor) (hrowForRow : RowForRow executor)
    (h : concatenate parts = some combined) :
    splitOutputs (executor.outputs combined) (parts.map NdArray.size) =
      some (parts.map executor.outputs) := by
  obtain ⟨shape, dtype, inputs, hinputs, rfl⟩ := concatenate_eq_some h
  have hsizes : ∀ part ∈ parts, ∀ j, (executor.run part j).size = part.size := by
    intro _ hpart j
    rw [hinputs] at hpart
    obtain ⟨items, -, rfl⟩ := List.mem_map.1 hpart
    exact hrowForRow items shape dtype j
  choose shape' dtype' blocks hblocks hcombined using fun j =>
    concatenate_eq_some (hrowWise parts _ h j)
  have houtputs : executor.outputs (.rows inputs.flatten shape dtype) =
      List.ofFn fun j => .rows ([] ++ (blocks j).flatten) (shape' j) (dtype' j) := by
    exact congrArg List.ofFn (funext hcombined)
  have htotal : ∀ j, ((blocks j).flatten).length = (parts.map NdArray.size).sum := by
    intro j
    have hsize := hrowForRow inputs.flatten shape dtype j
    rw [hcombined j] at hsize
    rw [show (blocks j).flatten.length = _ from hsize, hinputs, List.map_map, List.length_flatten]
    rfl
  unfold splitOutputs
  rw [if_neg, houtputs]
  · exact congrArg some (grouped_eq executor.run shape' dtype' (fun _ => []) blocks 0 (fun _ => rfl)
      hblocks hsizes)
  · rw [houtputs, List.any_eq_true]
    rintro ⟨_, houtput, hmisfit⟩
    obtain ⟨j, rfl⟩ := List.mem_ofFn.1 houtput
    simp [misfit, htotal j] at hmisfit

end Scenara.Inference
