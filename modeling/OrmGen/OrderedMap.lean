/-
  Maps from texts to values that remember the order in which their keys first appeared.

  `insert` overwrites a present key where it stands and adds a new key at the end, so the
  keys never move (`keys_insert_of_mem`, `keys_insert_of_notMem`). Keys are distinct by
  construction: the fact is a field of the type.
-/
namespace OrmGen

universe u v

/-- A finite map with distinct keys in order of first insertion. -/
structure OrderedMap (α : Type u) where
  entries : List (String × α)
  nodup : (entries.map Prod.fst).Nodup

namespace OrderedMap

variable {α : Type u} {β : Type v} {ε : Type}

theorem ext {m n : OrderedMap α} (h : m.entries = n.entries) : m = n := by
  cases m; cases n; cases h; rfl

instance [DecidableEq α] : DecidableEq (OrderedMap α) := fun m n =>
  if h : m.entries = n.entries then isTrue (ext h) else isFalse fun e => h (e ▸ rfl)

/-- The map without keys. -/
def empty : OrderedMap α := ⟨[], List.nodup_nil⟩

instance : Inhabited (OrderedMap α) := ⟨empty⟩

def keys (m : OrderedMap α) : List String := m.entries.map Prod.fst

def values (m : OrderedMap α) : List α := m.entries.map Prod.snd

def size (m : OrderedMap α) : Nat := m.entries.length

/-- The value at the first of `es` with key `k`. -/
def lookup? (k : String) : List (String × α) → Option α
  | [] => none
  | (k', v) :: es => if k' = k then some v else lookup? k es

def get? (m : OrderedMap α) (k : String) : Option α := lookup? k m.entries

def contains (m : OrderedMap α) (k : String) : Bool := (m.get? k).isSome

/-- `es` with `v` written over the first entry of key `k`, or added at the end. -/
def insertEntry (k : String) (v : α) : List (String × α) → List (String × α)
  | [] => [(k, v)]
  | (k', v') :: es => if k' = k then (k, v) :: es else (k', v') :: insertEntry k v es

theorem keys_insertEntry_of_mem {k : String} {v : α} {es : List (String × α)}
    (h : k ∈ es.map Prod.fst) : (insertEntry k v es).map Prod.fst = es.map Prod.fst := by
  induction es with
  | nil => simp at h
  | cons e es ih =>
    obtain ⟨k', v'⟩ := e
    by_cases hk : k' = k
    · simp [insertEntry, hk]
    · have : k ∈ es.map Prod.fst := by
        rcases List.mem_cons.1 h with h | h
        · exact absurd h.symm hk
        · exact h
      simpa [insertEntry, hk] using ih this

theorem insertEntry_of_notMem {k : String} {v : α} {es : List (String × α)}
    (h : k ∉ es.map Prod.fst) : insertEntry k v es = es ++ [(k, v)] := by
  induction es with
  | nil => rfl
  | cons e es ih =>
    obtain ⟨k', v'⟩ := e
    have hk : k' ≠ k := fun e => h (by simp [e])
    have : k ∉ es.map Prod.fst := fun hm => h (List.mem_cons_of_mem _ hm)
    simp [insertEntry, hk, ih this]

theorem nodup_insertEntry {k : String} {v : α} {es : List (String × α)}
    (h : (es.map Prod.fst).Nodup) : ((insertEntry k v es).map Prod.fst).Nodup := by
  by_cases hk : k ∈ es.map Prod.fst
  · rwa [keys_insertEntry_of_mem hk]
  · rw [insertEntry_of_notMem hk]
    simp only [List.map_append, List.map_cons, List.map_nil]
    rw [List.nodup_append]
    refine ⟨h, by simp, ?_⟩
    intro a ha b hb e
    simp only [List.mem_singleton] at hb
    exact hk (hb ▸ e ▸ ha)

/-- Write `v` at `k`: in place if `k` is present, at the end if not. -/
def insert (m : OrderedMap α) (k : String) (v : α) : OrderedMap α :=
  ⟨insertEntry k v m.entries, nodup_insertEntry m.nodup⟩

/-- `es` with `f` applied to the value of the first entry of key `k`, if there is one. -/
def modifyEntry (k : String) (f : α → α) : List (String × α) → List (String × α)
  | [] => []
  | (k', v) :: es => if k' = k then (k', f v) :: es else (k', v) :: modifyEntry k f es

theorem keys_modifyEntry (k : String) (f : α → α) (es : List (String × α)) :
    (modifyEntry k f es).map Prod.fst = es.map Prod.fst := by
  induction es with
  | nil => rfl
  | cons e es ih =>
    obtain ⟨k', v⟩ := e
    by_cases hk : k' = k
    · simp [modifyEntry, hk]
    · simp [modifyEntry, hk, ih]

/-- Change the value at `k` where it stands; nothing happens without one. -/
def modify (k : String) (f : α → α) (m : OrderedMap α) : OrderedMap α :=
  ⟨modifyEntry k f m.entries, by rw [keys_modifyEntry]; exact m.nodup⟩

/-- Insert the entries of a list one after another. -/
def ofList (es : List (String × α)) : OrderedMap α :=
  es.foldl (fun m e => m.insert e.1 e.2) empty

/-- Replace every value, keeping keys and order. -/
def map (f : String → α → β) (m : OrderedMap α) : OrderedMap β :=
  ⟨m.entries.map fun e => (e.1, f e.1 e.2), by
    have : (m.entries.map fun e => (e.1, f e.1 e.2)).map Prod.fst = m.entries.map Prod.fst := by
      simp
    rw [this]; exact m.nodup⟩

/-- Apply `f` to the entries from left to right and stop at the first failure. -/
def traverseEntries (f : String → α → Except ε β) :
    List (String × α) → Except ε (List (String × β))
  | [] => .ok []
  | (k, v) :: es =>
    match f k v with
    | .error e => .error e
    | .ok w =>
      match traverseEntries f es with
      | .error e => .error e
      | .ok ws => .ok ((k, w) :: ws)

theorem keys_traverseEntries {f : String → α → Except ε β} {es : List (String × α)}
    {ws : List (String × β)} (h : traverseEntries f es = .ok ws) :
    ws.map Prod.fst = es.map Prod.fst := by
  induction es generalizing ws with
  | nil => cases h; rfl
  | cons e es ih =>
    obtain ⟨k, v⟩ := e
    simp only [traverseEntries] at h
    split at h
    · cases h
    · split at h
      · cases h
      · rename_i ws' hw
        cases h
        simp [ih hw]

/-- Replace every value by the outcome of `f`; the first failure in order is the answer. -/
def traverse (f : String → α → Except ε β) (m : OrderedMap α) : Except ε (OrderedMap β) :=
  match h : traverseEntries f m.entries with
  | .error e => .error e
  | .ok ws => .ok ⟨ws, by rw [keys_traverseEntries h]; exact m.nodup⟩

/-! ## Laws -/

theorem keys_insert_of_mem {m : OrderedMap α} {k : String} {v : α} (h : k ∈ m.keys) :
    (m.insert k v).keys = m.keys := keys_insertEntry_of_mem h

theorem keys_insert_of_notMem {m : OrderedMap α} {k : String} {v : α} (h : k ∉ m.keys) :
    (m.insert k v).keys = m.keys ++ [k] := by
  simp [keys, insert, insertEntry_of_notMem h]

theorem lookup?_insertEntry (k j : String) (v : α) (es : List (String × α)) :
    lookup? j (insertEntry k v es) = if j = k then some v else lookup? j es := by
  induction es with
  | nil =>
    by_cases h : j = k
    · simp [insertEntry, lookup?, h]
    · simp [insertEntry, lookup?, h, Ne.symm h]
  | cons e es ih =>
    obtain ⟨k', v'⟩ := e
    by_cases hk : k' = k
    · by_cases h : j = k
      · simp [insertEntry, lookup?, hk, h]
      · have : ¬ k = j := fun e => h e.symm
        simp [insertEntry, lookup?, hk, h, this]
    · by_cases h : j = k
      · subst h
        simpa [insertEntry, lookup?, hk] using ih
      · simp [insertEntry, lookup?, hk, ih, h]

/-- The value written is there, and every other key keeps its value. -/
theorem get?_insert (m : OrderedMap α) (k j : String) (v : α) :
    (m.insert k v).get? j = if j = k then some v else m.get? j :=
  lookup?_insertEntry k j v m.entries

theorem lookup?_modifyEntry (k j : String) (f : α → α) (es : List (String × α)) :
    lookup? j (modifyEntry k f es) = if j = k then (lookup? j es).map f else lookup? j es := by
  induction es with
  | nil => simp [modifyEntry, lookup?]
  | cons e es ih =>
    obtain ⟨k', v⟩ := e
    by_cases hk : k' = k
    · by_cases h : j = k
      · simp [modifyEntry, lookup?, hk, h]
      · simp [modifyEntry, lookup?, hk, h, Ne.symm h]
    · by_cases h : j = k
      · subst h
        simpa [modifyEntry, lookup?, hk] using ih
      · simp [modifyEntry, lookup?, hk, ih, h]

/-- The value at the key is changed, and every other key keeps its value. -/
theorem get?_modify (k j : String) (f : α → α) (m : OrderedMap α) :
    (m.modify k f).get? j = if j = k then (m.get? j).map f else m.get? j :=
  lookup?_modifyEntry k j f m.entries

theorem lookup?_eq_none_iff {k : String} {es : List (String × α)} :
    lookup? k es = none ↔ k ∉ es.map Prod.fst := by
  induction es with
  | nil => simp [lookup?]
  | cons e es ih =>
    obtain ⟨k', v'⟩ := e
    by_cases hk : k' = k
    · simp [lookup?, hk]
    · simp only [lookup?, hk, if_false, ih, List.map_cons, List.mem_cons, not_or]
      exact ⟨fun h => ⟨Ne.symm hk, h⟩, fun h => h.2⟩

theorem contains_iff {m : OrderedMap α} {k : String} : m.contains k = true ↔ k ∈ m.keys := by
  unfold contains get? keys
  rw [Option.isSome_iff_ne_none, ne_eq, lookup?_eq_none_iff]
  exact Decidable.not_not

theorem mem_insertEntry {k : String} {v : α} {es : List (String × α)} {e : String × α}
    (h : e ∈ insertEntry k v es) : e = (k, v) ∨ e ∈ es := by
  induction es with
  | nil => simpa [insertEntry] using h
  | cons x es ih =>
    obtain ⟨k', v'⟩ := x
    by_cases hk : k' = k
    · rw [insertEntry, if_pos hk, List.mem_cons] at h
      exact h.imp id (List.mem_cons_of_mem _)
    · rw [insertEntry, if_neg hk, List.mem_cons] at h
      rcases h with h | h
      · exact .inr (h ▸ List.mem_cons_self)
      · exact (ih h).imp id (List.mem_cons_of_mem _)

theorem mem_foldl_insert {es : List (String × α)} {m : OrderedMap α} {e : String × α}
    (h : e ∈ (es.foldl (fun m e => m.insert e.1 e.2) m).entries) : e ∈ m.entries ∨ e ∈ es := by
  induction es generalizing m with
  | nil => exact .inl h
  | cons x es ih =>
    rcases ih h with h | h
    · rcases mem_insertEntry h with h | h
      · exact .inr (h ▸ List.mem_cons_self)
      · exact .inl h
    · exact .inr (List.mem_cons_of_mem _ h)

/-- Every entry of the map built from a list stands in the list. -/
theorem mem_of_mem_ofList {es : List (String × α)} {e : String × α}
    (h : e ∈ (ofList es).entries) : e ∈ es :=
  (mem_foldl_insert h).resolve_left (by simp [empty])

end OrderedMap
end OrmGen
