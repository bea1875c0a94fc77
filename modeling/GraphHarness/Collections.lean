import Mathlib.Data.List.AList
import Mathlib.Data.List.Perm.Basic

/-!
# Hash collections and characters

`HashMap<String, _>` is an association list with distinct keys, `HashSet<String>`
a list built with `List.insert`. The program gives neither an order. A map that
comes in as data is iterated in the order of its entries, which the theorems
leave arbitrary; every collection the program builds and then iterates is
re-ordered by a `HashOrder` first. A theorem for all `HashOrder`s holds for
every order the hasher can produce.

`startingAt` makes the orders that the theorems on failures need, in which a given element
comes first. `push` and `group` are the loops that collect values under a key; what is found
afterwards is stated of the loop as a whole, for any list it runs over.

Keys are compared by equality, as the source's `Eq` does. Capacity, hashing and the cost of
an operation are left out, and so are the references into a map that Rust hands out: a
value that is looked up is a copy, and every change is an operation on the map.
-/

namespace GraphHarness

/-- A hash map. The order of the entries carries no meaning. -/
abbrev HashMap (κ ν : Type) := AList (fun _ : κ => ν)

namespace HashMap

variable {κ ν : Type} [DecidableEq κ] {map : HashMap κ ν} {key : κ}

/-- A key that is not there is erased without a trace. -/
theorem erase_absent (h : key ∉ map) : map.erase key = map :=
  AList.ext (List.kerase_of_notMem_keys h)

/-- A key that is there is missed afterwards. -/
theorem erase_ne (h : key ∈ map) : map.erase key ≠ map := by
  intro heq
  rw [← heq] at h
  exact (AList.mem_erase.mp h).1 rfl

/-- A new key makes another map. -/
theorem insert_ne (h : key ∉ map) (value : ν) : map.insert key value ≠ map := by
  intro heq
  exact h (heq ▸ (AList.mem_insert map).mpr (.inl rfl))

/-- `collect` of pairs into a map: a later pair replaces an earlier one of the same key. -/
def collect (pairs : List (κ × ν)) : HashMap κ ν :=
  pairs.foldl (fun map pair => map.insert pair.1 pair.2) ∅

/-- A loop that inserts a value for each key: what is found afterwards is the value of a key of
the loop, or what was there. -/
theorem lookup_foldl_insert (value : κ → ν) (keys : List κ) (map : HashMap κ ν) :
    (keys.foldl (fun map key => map.insert key (value key)) map).lookup key =
      if key ∈ keys then some (value key) else map.lookup key := by
  induction keys generalizing map with
  | nil => simp
  | cons first keys ih =>
    rw [List.foldl_cons, ih]
    by_cases hkeys : key ∈ keys
    · simp [hkeys]
    · by_cases hfirst : key = first
      · subst hfirst
        simp [hkeys]
      · simp [hkeys, hfirst, AList.lookup_insert_ne hfirst]

/-- Where the value is one of the key, the order of the keys does not matter. -/
theorem lookup_collect (value : κ → ν) (keys : List κ) :
    (collect (keys.map fun key => (key, value key))).lookup key =
      if key ∈ keys then some (value key) else none := by
  rw [collect, List.foldl_map, lookup_foldl_insert, AList.lookup_empty]

/-- `entry(key).or_default().push(value)`. -/
def push (map : HashMap κ (List ν)) (pair : κ × ν) : HashMap κ (List ν) :=
  map.insert pair.1 ((map.lookup pair.1).getD [] ++ [pair.2])

/-- The values of every key, in the order of the pairs. -/
def group (pairs : List (κ × ν)) : HashMap κ (List ν) := pairs.foldl push ∅

/-- The values of one key. -/
def valuesAt (key : κ) (pairs : List (κ × ν)) : List ν :=
  (pairs.filter fun pair => pair.1 = key).map Prod.snd

/-- A loop that pushes values: they come behind those that were there, in their order. -/
theorem lookup_foldl_push (pairs : List (κ × ν)) (map : HashMap κ (List ν)) :
    ((pairs.foldl push map).lookup key).getD [] =
      (map.lookup key).getD [] ++ valuesAt key pairs := by
  induction pairs generalizing map with
  | nil => simp [valuesAt]
  | cons pair pairs ih =>
    rw [List.foldl_cons, ih]
    by_cases hkey : pair.1 = key
    · subst hkey
      simp [push, valuesAt]
    · simp [push, valuesAt, hkey, AList.lookup_insert_ne (Ne.symm hkey)]

/-- The group of a key holds its values in their order. -/
theorem lookup_group (pairs : List (κ × ν)) :
    ((group pairs).lookup key).getD [] = valuesAt key pairs := by
  rw [group, lookup_foldl_push, AList.lookup_empty]
  rfl

/-- A loop that pushes values adds no keys but its own. -/
theorem mem_foldl_push (pairs : List (κ × ν)) (map : HashMap κ (List ν)) :
    key ∈ pairs.foldl push map ↔ key ∈ map ∨ key ∈ pairs.map Prod.fst := by
  induction pairs generalizing map with
  | nil => simp
  | cons pair pairs ih =>
    rw [List.foldl_cons, ih, push, AList.mem_insert]
    simp only [List.map_cons, List.mem_cons]
    tauto

/-- There is a group for each key that occurs. -/
theorem mem_group {pairs : List (κ × ν)} : key ∈ group pairs ↔ key ∈ pairs.map Prod.fst := by
  rw [group, mem_foldl_push]
  simp

/-- A key has one value for each time it occurs. -/
theorem length_valuesAt (pairs : List (κ × ν)) :
    (valuesAt key pairs).length = (pairs.map Prod.fst).count key := by
  rw [valuesAt, List.length_map, ← List.countP_eq_length_filter, List.count, List.countP_map]
  rfl

/-- No key has two values exactly if no two pairs have the same key. -/
theorem group_nodup_iff {pairs : List (κ × ν)} :
    (∀ key ∈ (group pairs).keys, (((group pairs).lookup key).getD []).length ≤ 1) ↔
      (pairs.map Prod.fst).Nodup := by
  rw [List.nodup_iff_count_le_one]
  constructor
  · intro h key
    by_cases hkey : key ∈ pairs.map Prod.fst
    · have hone := h key (AList.mem_keys.mp (mem_group.mpr hkey))
      rwa [lookup_group, length_valuesAt] at hone
    · rw [List.count_eq_zero_of_not_mem hkey]
      exact Nat.zero_le _
  · intro h key _
    rw [lookup_group, length_valuesAt]
    exact h key

end HashMap

/-- `char::is_whitespace`. -/
def isWhitespace (c : Char) : Bool :=
  let n := c.toNat
  (0x09 ≤ n && n ≤ 0x0D) || n == 0x20 || n == 0x85 || n == 0xA0 || n == 0x1680 ||
    (0x2000 ≤ n && n ≤ 0x200A) || n == 0x2028 || n == 0x2029 || n == 0x202F || n == 0x205F ||
    n == 0x3000

/-- The collections that are iterated after they were built. -/
inductive Site where
  | services
  | toStart
  | toStop
  | affected
  | dependents (service : String)
  | serviceRefs
  deriving DecidableEq, Repr

/-- The iteration order of every collection of one run: the contents, permuted.
A collection is not modified while it is iterated, so one order for each is
enough. -/
structure HashOrder where
  iter : Site → List String → List String
  perm : ∀ site l, (iter site l).Perm l

namespace HashOrder

@[simp] theorem mem_iter (ord : HashOrder) (site : Site) (l : List String) (x : String) :
    x ∈ ord.iter site l ↔ x ∈ l := (ord.perm site l).mem_iff

/-- The order in which the list happens to be stored. -/
def stored : HashOrder := ⟨fun _ l => l, fun _ l => List.Perm.refl l⟩

/-- The order that has `s` in front wherever it occurs. -/
def startingAt (s : String) : HashOrder where
  iter _ l := if s ∈ l then s :: l.erase s else l
  perm _ l := by
    by_cases h : s ∈ l
    · rw [if_pos h]
      exact (List.perm_cons_erase h).symm
    · rw [if_neg h]

/-- The iteration order `startingAt` begins with its element. -/
theorem startingAt_iter {s : String} {l : List String} (h : s ∈ l) (site : Site) :
    (startingAt s).iter site l = s :: l.erase s := if_pos h

end HashOrder

end GraphHarness
