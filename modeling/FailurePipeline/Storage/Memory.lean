import FailurePipeline.Storage.Path

/-!
# Stores in memory

A `Memory` keeps one sequence of octets under each path that has been written.
-/

namespace FailurePipeline

structure Memory where
  objects : List (ObjectPath × Bytes) := []
  distinct : (objects.map Prod.fst).Nodup := by simp

namespace Memory

def empty : Memory := {}

instance : Inhabited Memory := ⟨empty⟩

instance : Repr Memory := ⟨fun m n => reprPrec m.objects n⟩

theorem eq_of_objects_eq {m n : Memory} (h : m.objects = n.objects) : m = n := by
  cases m; cases n; cases h; rfl

instance : DecidableEq Memory := fun m n =>
  if h : m.objects = n.objects then .isTrue (eq_of_objects_eq h) else .isFalse fun e => h (e ▸ rfl)

def get? (m : Memory) (p : ObjectPath) : Option Bytes := (m.objects.find? (·.1 = p)).map (·.2)

/-- Writes under a path: in place if something is there, else at the end. -/
def write (p : ObjectPath) (octets : Bytes) : List (ObjectPath × Bytes) → List (ObjectPath × Bytes)
  | [] => [(p, octets)]
  | (q, old) :: rest => if q = p then (p, octets) :: rest else (q, old) :: write p octets rest

theorem map_fst_write (p : ObjectPath) (octets : Bytes) (os : List (ObjectPath × Bytes)) :
    (write p octets os).map Prod.fst =
      if p ∈ os.map Prod.fst then os.map Prod.fst else os.map Prod.fst ++ [p] := by
  induction os with
  | nil => simp [write]
  | cons o os ih =>
    obtain ⟨q, old⟩ := o
    by_cases h : q = p
    · simp [write, h]
    · have h' : ¬p = q := fun e => h e.symm
      simp only [write, h, if_false, List.map_cons, ih, List.mem_cons, h', false_or]
      split <;> simp

theorem nodup_write {p : ObjectPath} {octets : Bytes} {os : List (ObjectPath × Bytes)}
    (h : (os.map Prod.fst).Nodup) : ((write p octets os).map Prod.fst).Nodup := by
  rw [map_fst_write]
  split
  · exact h
  · next hp =>
    rw [List.nodup_append]
    refine ⟨h, by simp, ?_⟩
    intro a ha b hb e
    rw [List.mem_singleton.1 hb] at e
    exact hp (e ▸ ha)

/-- Keeps octets under a path and drops what was there. -/
def put (m : Memory) (p : ObjectPath) (octets : Bytes) : Memory :=
  ⟨write p octets m.objects, nodup_write m.distinct⟩

/-- The paths properly below another one, relative to it. -/
def list (m : Memory) (base : ObjectPath) : List ObjectPath := m.objects.filterMap fun o => base.relative? o.1

end Memory

end FailurePipeline
