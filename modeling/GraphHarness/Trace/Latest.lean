import Mathlib.Data.List.AList
import Mathlib.Data.List.Basic

/-!
# The last write

An operation may write a cell or leave it alone; `latest writes ops` is what the last
operation that writes has written.

> `read_foldl`: a cell that every operation writes or leaves alone holds, after a run
> of operations, the last write, and what it held before the run if there was none.

`latest` is a fold over the operations, so a lemma about it is one induction for every cell of
every map whose operations write or leave alone. Maps with several cells are read cell by
cell.
-/

namespace GraphHarness.Trace

variable {σ ι ν μ : Type} {writes : ι → Option ν}

/-- What the last operation that writes has written. -/
def latest (writes : ι → Option ν) (ops : List ι) : Option ν :=
  (ops.filterMap writes).getLast?

@[simp] theorem latest_nil : latest writes [] = none := rfl

theorem latest_cons (op : ι) (ops : List ι) :
    latest writes (op :: ops) = (latest writes ops).or (writes op) := by
  cases hop : writes op with
  | none => simp [latest, hop]
  | some v => simp [latest, hop, List.getLast?_cons]

theorem latest_eq_none_iff {ops : List ι} :
    latest writes ops = none ↔ ∀ op ∈ ops, writes op = none := by
  rw [latest, List.getLast?_eq_none_iff, List.filterMap_eq_nil_iff]

/-- The cell of a state, as far as a run of operations determines it. -/
theorem read_foldl (step : σ → ι → σ) (read : σ → Option ν)
    (hstep : ∀ s op, read (step s op) = (writes op).or (read s)) (ops : List ι) (s : σ) :
    read (ops.foldl step s) = (latest writes ops).or (read s) := by
  induction ops generalizing s with
  | nil => simp
  | cons op ops ih => rw [List.foldl_cons, ih, hstep, latest_cons, Option.or_assoc]

/-- A map has a cell for each key; an insert writes one of them. -/
theorem lookup_insert_eq_or {κ : Type} [DecidableEq κ] (key key' : κ) (v : ν)
    (map : AList fun _ : κ => ν) : (map.insert key v).lookup key' =
      (if key = key' then some v else none).or (map.lookup key') := by
  by_cases h : key = key'
  · simp [h]
  · simp [h, AList.lookup_insert_ne (Ne.symm h)]

/-- A part of what is written, in a cell of its own. -/
theorem latest_map (part : ν → μ) (ops : List ι) :
    latest (fun op => (writes op).map part) ops = (latest writes ops).map part := by
  induction ops with
  | nil => rfl
  | cons op ops ih => rw [latest_cons, latest_cons, ih, Option.map_or]

/-- The last write has the part, so it is the last write of the part as well. -/
theorem latest_bind {part : ν → Option μ} {ops : List ι} {v : ν} {p : μ}
    (hlast : latest writes ops = some v) (hpart : part v = some p) :
    latest (fun op => (writes op).bind part) ops = some p := by
  induction ops with
  | nil => simp at hlast
  | cons op ops ih =>
    rw [latest_cons]
    rw [latest_cons] at hlast
    cases hops : latest writes ops with
    | none =>
      have hnone : latest (fun op => (writes op).bind part) ops = none := by
        rw [latest_eq_none_iff] at hops ⊢
        intro o ho
        simp [hops o ho]
      rw [hops, Option.none_or] at hlast
      simp [hnone, hlast, hpart]
    | some w =>
      rw [hops, Option.some_or] at hlast
      rw [ih (hops.trans hlast), Option.some_or]

end GraphHarness.Trace
