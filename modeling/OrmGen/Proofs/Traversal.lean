/-
  Outcomes and maps. A computation of several steps succeeds when every step does
  (`bind_eq_ok`, `map_eq_ok`), and an ordered map is the function that `get?` gives: the
  entries are the pairs it relates (`mem_entries_iff`). `OrderedMap.traverse` succeeds when
  every value has an outcome, and then relates the two maps value by value
  (`get?_of_traverse`, `forall₂_of_traverse`). Changing the values one after another, each by
  its key, gives the map of the changed values (`foldl_modify_eq`).
-/
import Mathlib.Data.List.Forall2
import Mathlib.Data.List.TakeWhile
import OrmGen.OrderedMap

namespace OrmGen

universe u v

section Outcomes

variable {ε : Type} {α β : Type v}

theorem bind_eq_ok {x : Except ε α} {f : α → Except ε β} {b : β} :
    (x >>= f) = .ok b ↔ ∃ a, x = .ok a ∧ f a = .ok b := by
  cases x <;> simp [Bind.bind, Except.bind]

theorem map_eq_ok {x : Except ε α} {f : α → β} {b : β} :
    x.map f = .ok b ↔ ∃ a, x = .ok a ∧ f a = b := by
  cases x <;> simp [Except.map]

theorem bind_eq_error {x : Except ε α} {f : α → Except ε β} {err : ε} :
    (x >>= f) = .error err ↔ x = .error err ∨ ∃ a, x = .ok a ∧ f a = .error err := by
  cases x <;> simp [Bind.bind, Except.bind]

theorem map_eq_error {x : Except ε α} {f : α → β} {err : ε} :
    x.map f = .error err ↔ x = .error err := by
  cases x <;> simp [Except.map]

theorem pure_eq_ok {a b : α} : (pure a : Except ε α) = .ok b ↔ a = b := by
  simp [Pure.pure, Except.pure]

theorem toOption_map (x : Except ε α) (f : α → β) : (x.map f).toOption = x.toOption.map f := by
  cases x <;> rfl

theorem toOption_eq_some {x : Except ε α} {a : α} : x.toOption = some a ↔ x = .ok a := by
  cases x <;> simp [Except.toOption]

/-- Computations that are alike up to `p` and go on alike from results that are, are alike up to
`q` in the end. -/
theorem map_bind_congr {γ δ : Type v} {x x' : Except ε α} {f f' : α → Except ε β} {p : α → γ}
    {q : β → δ} (h : x'.map p = x.map p)
    (hf : ∀ {a a'}, p a' = p a → (f' a').map q = (f a).map q) :
    (x' >>= f').map q = (x >>= f).map q := by
  cases x with
  | error e =>
    cases x' with
    | error e' =>
      rw [Except.map, Except.map, Except.error.injEq] at h
      rw [h]
      rfl
    | ok a' => cases h
  | ok a =>
    cases x' with
    | error e' => cases h
    | ok a' =>
      rw [Except.map, Except.map, Except.ok.injEq] at h
      exact hf h

theorem map_map_congr {γ δ : Type v} {x x' : Except ε α} {f : α → β} {p : α → γ} {q : β → δ}
    (h : x'.map p = x.map p) (hf : ∀ {a a'}, p a' = p a → q (f a') = q (f a)) :
    (x'.map f).map q = (x.map f).map q := by
  have hbind : (x' >>= fun a => .ok (f a)).map q = (x >>= fun a => .ok (f a)).map q :=
    map_bind_congr h fun hp => congrArg Except.ok (hf hp)
  cases x <;> cases x' <;> exact hbind

/-- Computations that are alike up to `p` succeed alike. -/
theorem exists_ok_iff_of_map {γ : Type v} {x x' : Except ε α} {p : α → γ}
    (h : x'.map p = x.map p) : (∃ a, x' = .ok a) ↔ ∃ a, x = .ok a := by
  constructor
  · rintro ⟨a', rfl⟩
    obtain ⟨a, ha, _⟩ := map_eq_ok.1 h.symm
    exact ⟨a, ha⟩
  · rintro ⟨a, rfl⟩
    obtain ⟨a', ha', _⟩ := map_eq_ok.1 h
    exact ⟨a', ha'⟩

/-- A computation whose outcome passes a test succeeds. -/
theorem exists_ok_of_any {x : Except ε α} {P : α → Prop} [DecidablePred P]
    (h : (x.toOption.any fun a => decide (P a)) = true) : ∃ a, x = .ok a ∧ P a := by
  cases x with
  | error e => cases h
  | ok a => exact ⟨a, rfl, of_decide_eq_true h⟩

end Outcomes

/-- What stands on the right of two related lists comes from the left. -/
theorem exists_of_forall₂ {α : Type u} {β : Type v} {R : α → β → Prop} {xs : List α} {ys : List β}
    (h : List.Forall₂ R xs ys) {y : β} (hy : y ∈ ys) : ∃ x ∈ xs, R x y := by
  induction h with
  | nil => cases hy
  | @cons x y' xs ys hxy _ ih =>
    by_cases hyy : y = y'
    · exact ⟨x, List.mem_cons_self, hyy ▸ hxy⟩
    · obtain ⟨z, hz, hR⟩ := ih (List.mem_of_ne_of_mem hyy hy)
      exact ⟨z, List.mem_cons_of_mem _ hz, hR⟩

/-- What holds on the one side of two related lists holds on the other, if it does of related
elements. -/
theorem forall_mem_iff_of_forall₂ {α : Type u} {β : Type v} {R : α → β → Prop} {xs : List α}
    {ys : List β} {P : α → Prop} {Q : β → Prop} (h : List.Forall₂ R xs ys)
    (hPQ : ∀ x y, R x y → (Q y ↔ P x)) : (∀ y ∈ ys, Q y) ↔ ∀ x ∈ xs, P x := by
  induction h with
  | nil => simp
  | cons hxy _ ih => rw [List.forall_mem_cons, List.forall_mem_cons, hPQ _ _ hxy, ih]

/-- What is picked out of two related lists is related. -/
theorem forall₂_filterMap {α : Type u} {β γ : Type v} {R : α → β → Prop} {S : α → γ → Prop}
    {p : α → Bool} {g : β → Option γ} {xs : List α} {ys : List β} (h : List.Forall₂ R xs ys)
    (hpick : ∀ {x y}, R x y → p x = true → ∃ z, g y = some z ∧ S x z)
    (hskip : ∀ {x y}, R x y → p x = false → g y = none) :
    List.Forall₂ S (xs.filter p) (ys.filterMap g) := by
  induction h with
  | nil => exact .nil
  | @cons x y xs ys hxy _ ih =>
    cases hp : p x with
    | true =>
      obtain ⟨z, hz, hxz⟩ := hpick hxy hp
      rw [List.filter_cons_of_pos hp, List.filterMap_cons_some hz]
      exact .cons hxz ih
    | false =>
      rw [List.filter_cons_of_neg (Bool.eq_false_iff.1 hp), List.filterMap_cons_none (hskip hxy hp)]
      exact ih

namespace OrderedMap

variable {α : Type u} {β : Type v} {ε : Type}

/-! ## Entries and keys -/

theorem lookup?_eq_some_iff {es : List (String × α)} (h : (es.map Prod.fst).Nodup)
    {k : String} {v : α} : lookup? k es = some v ↔ (k, v) ∈ es := by
  induction es with
  | nil => simp [lookup?]
  | cons e es ih =>
    obtain ⟨j, w⟩ := e
    rw [List.map_cons, List.nodup_cons] at h
    by_cases hj : j = k
    · subst hj
      have hes : (j, v) ∉ es := fun hm => h.1 (List.mem_map.2 ⟨_, hm, rfl⟩)
      simp [lookup?, hes, eq_comm]
    · simp [lookup?, hj, ih h.2, Ne.symm hj]

theorem mem_entries_iff {m : OrderedMap α} {k : String} {v : α} :
    (k, v) ∈ m.entries ↔ m.get? k = some v := (lookup?_eq_some_iff m.nodup).symm

theorem mem_values_iff {m : OrderedMap α} {v : α} : v ∈ m.values ↔ ∃ k, m.get? k = some v := by
  unfold values
  rw [List.mem_map]
  constructor
  · rintro ⟨⟨k, w⟩, hm, rfl⟩
    exact ⟨k, mem_entries_iff.1 hm⟩
  · rintro ⟨k, hk⟩
    exact ⟨(k, v), mem_entries_iff.2 hk, rfl⟩

/-- Where every value knows its key the keys can be read off the values. -/
theorem map_values_eq_keys {m : OrderedMap α} {f : α → String}
    (h : ∀ {k v}, m.get? k = some v → f v = k) : m.values.map f = m.keys := by
  unfold values keys
  rw [List.map_map]
  apply List.map_congr_left
  intro entry hentry
  exact h (mem_entries_iff.1 hentry)

/-- What is true of every inserted entry is true of every entry of the map they make. -/
theorem get?_ofList {es : List (String × α)} {k : String} {v : α} (h : (ofList es).get? k = some v) :
    (k, v) ∈ es := mem_of_mem_ofList (mem_entries_iff.2 h)

/-- A value at a new key is added at the end. -/
theorem entries_insert_of_get?_eq_none {m : OrderedMap α} {k : String} (v : α)
    (h : m.get? k = none) : (m.insert k v).entries = m.entries ++ [(k, v)] :=
  insertEntry_of_notMem (lookup?_eq_none_iff.1 h)

theorem values_insert_of_get?_eq_none {m : OrderedMap α} {k : String} (v : α)
    (h : m.get? k = none) : (m.insert k v).values = m.values ++ [v] := by
  unfold values
  rw [entries_insert_of_get?_eq_none v h, List.map_append, List.map_singleton]

/-! ## Order of the keys -/

theorem keys_insert (m : OrderedMap α) (k : String) (v : α) :
    (m.insert k v).keys = if k ∈ m.keys then m.keys else m.keys ++ [k] := by
  by_cases hk : k ∈ m.keys
  · rw [if_pos hk, keys_insert_of_mem hk]
  · rw [if_neg hk, keys_insert_of_notMem hk]

/-- The order of the keys does not depend on the values that are inserted. -/
theorem keys_foldl_insert {es : List (String × α)} {fs : List (String × β)} {m : OrderedMap α}
    {n : OrderedMap β} (h : List.Forall₂ (fun e f => e.1 = f.1) es fs) (hm : m.keys = n.keys) :
    (es.foldl (fun m e => m.insert e.1 e.2) m).keys =
      (fs.foldl (fun n f => n.insert f.1 f.2) n).keys := by
  induction h generalizing m n with
  | nil => exact hm
  | @cons e f es fs hkey _ ih =>
    apply ih
    rw [keys_insert, keys_insert, hkey, hm]

/-- The keys that stand before `k`. -/
def keysBefore (m : OrderedMap α) (k : String) : List String := m.keys.takeWhile (· ≠ k)

/-- The values whose keys stand before `k`. -/
def before (m : OrderedMap α) (k : String) : List α :=
  (m.entries.takeWhile (·.1 ≠ k)).map Prod.snd

theorem mem_before {m : OrderedMap α} {k : String} {v : α} :
    v ∈ m.before k ↔ ∃ j ∈ m.keysBefore k, m.get? j = some v := by
  unfold before keysBefore keys
  rw [List.takeWhile_map, List.mem_map]
  have hsub := (List.takeWhile_prefix (l := m.entries) (fun e => decide (e.1 ≠ k))).subset
  constructor
  · rintro ⟨⟨j, w⟩, hw, rfl⟩
    exact ⟨j, List.mem_map.2 ⟨_, hw, rfl⟩, mem_entries_iff.1 (hsub hw)⟩
  · rintro ⟨j, hj, hv⟩
    obtain ⟨⟨i, w⟩, hw, rfl⟩ := List.mem_map.1 hj
    have hw' := mem_entries_iff.1 (hsub hw)
    rw [hv, Option.some.injEq] at hw'
    exact ⟨(i, w), hw, hw'.symm⟩

theorem ne_of_mem_keysBefore {m : OrderedMap α} {j k : String} (h : j ∈ m.keysBefore k) : j ≠ k := by
  simpa using List.mem_takeWhile_imp h

/-- Of two different keys exactly one stands before the other. -/
theorem mem_keysBefore_iff {m : OrderedMap α} {j k : String} (hj : j ∈ m.keys) (hk : k ∈ m.keys)
    (hne : j ≠ k) : j ∈ m.keysBefore k ↔ k ∉ m.keysBefore j := by
  unfold keysBefore
  generalize m.keys = ks at hj hk
  induction ks with
  | nil => cases hj
  | cons i ks ih =>
    by_cases hij : i = j
    · subst hij
      simp [hne]
    · by_cases hik : i = k
      · subst hik
        simp [hij]
      · have hj' := (List.mem_cons.1 hj).resolve_left (Ne.symm hij)
        have hk' := (List.mem_cons.1 hk).resolve_left (Ne.symm hik)
        simpa [hij, hik, Ne.symm hij, Ne.symm hik] using ih hj' hk'

theorem mem_keys_of_get? {m : OrderedMap α} {k : String} {v : α} (h : m.get? k = some v) :
    k ∈ m.keys := List.mem_map.2 ⟨(k, v), mem_entries_iff.2 h, rfl⟩

theorem lookup?_split {es : List (String × α)} {k : String} {v : α} (h : lookup? k es = some v) :
    ∃ post, es = es.takeWhile (·.1 ≠ k) ++ (k, v) :: post := by
  induction es with
  | nil => cases h
  | cons e es ih =>
    obtain ⟨j, w⟩ := e
    by_cases hj : j = k
    · subst hj
      simp only [lookup?, if_true, Option.some.injEq] at h
      subst h
      exact ⟨es, by simp⟩
    · simp only [lookup?, hj, if_false] at h
      obtain ⟨post, hpost⟩ := ih h
      refine ⟨post, ?_⟩
      rw [List.takeWhile_cons_of_pos (by simpa using hj), List.cons_append, ← hpost]

/-- The values of a map around one of them. -/
theorem values_split {m : OrderedMap α} {k : String} {v : α} (h : m.get? k = some v) :
    ∃ post, m.values = m.before k ++ v :: post := by
  obtain ⟨post, hpost⟩ := lookup?_split h
  refine ⟨post.map Prod.snd, ?_⟩
  unfold values before
  conv => lhs; rw [hpost]
  rw [List.map_append, List.map_cons]

/-! ## Traversals -/

theorem traverse_eq_ok {f : String → α → Except ε β} {m : OrderedMap α} {n : OrderedMap β} :
    m.traverse f = .ok n ↔ traverseEntries f m.entries = .ok n.entries := by
  unfold traverse
  split
  · rename_i e he
    simp [he]
  · rename_i ws hw
    constructor
    · intro h
      rw [Except.ok.injEq] at h
      rw [hw, ← h]
    · intro h
      rw [hw, Except.ok.injEq] at h
      exact congrArg _ (ext h)

theorem traverse_eq_error {f : String → α → Except ε β} {m : OrderedMap α} {err : ε} :
    m.traverse f = .error err ↔ traverseEntries f m.entries = .error err := by
  unfold traverse
  split
  · rename_i e he
    simp [he]
  · rename_i ws hw
    simp [hw]

theorem traverseEntries_eq_ok {f : String → α → Except ε β} {es : List (String × α)}
    {ws : List (String × β)} : traverseEntries f es = .ok ws ↔
      List.Forall₂ (fun e w => w.1 = e.1 ∧ f e.1 e.2 = .ok w.2) es ws := by
  induction es generalizing ws with
  | nil => simp [traverseEntries, eq_comm]
  | cons e es ih =>
    obtain ⟨k, v⟩ := e
    rw [List.forall₂_cons_left_iff]
    cases hv : f k v with
    | error err => simp [traverseEntries, hv]
    | ok w =>
      cases hes : traverseEntries f es with
      | error err => simp [traverseEntries, hv, hes, ← ih]
      | ok ws' =>
        simp only [traverseEntries, hv, hes, ← ih, Except.ok.injEq]
        constructor
        · rintro rfl
          exact ⟨(k, w), ws', ⟨rfl, rfl⟩, rfl, rfl⟩
        · rintro ⟨⟨j, x⟩, us, ⟨hj, hx⟩, rfl, rfl⟩
          simp_all

variable {f : String → α → Except ε β} {m : OrderedMap α} {n : OrderedMap β}

theorem keys_of_traverse (h : m.traverse f = .ok n) : n.keys = m.keys :=
  keys_traverseEntries (traverse_eq_ok.1 h)

theorem lookup?_of_forall₂ {R : String → α → β → Prop} {es : List (String × α)}
    {ws : List (String × β)} (h : List.Forall₂ (fun e w => w.1 = e.1 ∧ R e.1 e.2 w.2) es ws)
    {k : String} {w : β} (hw : lookup? k ws = some w) :
    ∃ v, lookup? k es = some v ∧ R k v w := by
  induction h with
  | nil => cases hw
  | @cons e w' es ws hew _ ih =>
    obtain ⟨j, v⟩ := e
    obtain ⟨j', x⟩ := w'
    obtain ⟨rfl, hR⟩ := hew
    by_cases hj : j' = k
    · subst hj
      simp only [lookup?, if_true, Option.some.injEq] at hw
      subst hw
      exact ⟨v, by simp [lookup?], hR⟩
    · simp only [lookup?, hj, if_false] at hw ⊢
      exact ih hw

/-- A value after a traversal is the outcome of the value that stood at its key. -/
theorem get?_of_traverse (h : m.traverse f = .ok n) {k : String} {w : β}
    (hw : n.get? k = some w) : ∃ v, m.get? k = some v ∧ f k v = .ok w :=
  lookup?_of_forall₂ (R := fun k v w => f k v = .ok w)
    (traverseEntries_eq_ok.1 (traverse_eq_ok.1 h)) hw

/-- After a traversal every key still has a value. -/
theorem get?_traverse (h : m.traverse f = .ok n) {k : String} {v : α}
    (hv : m.get? k = some v) : ∃ w, n.get? k = some w ∧ f k v = .ok w := by
  have hk : k ∈ n.keys := by
    rw [keys_of_traverse h]
    exact List.mem_map_of_mem (mem_entries_iff.2 hv)
  obtain ⟨⟨j, w⟩, hw, rfl⟩ := List.mem_map.1 hk
  have hw' := mem_entries_iff.1 hw
  obtain ⟨v', hv', hf⟩ := get?_of_traverse h hw'
  rw [hv, Option.some.injEq] at hv'
  exact ⟨w, hw', hv' ▸ hf⟩

/-- A traversal succeeds if every value has an outcome. -/
theorem exists_traverse_iff : (∃ n, m.traverse f = .ok n) ↔
    ∀ {k v}, m.get? k = some v → ∃ w, f k v = .ok w := by
  constructor
  · rintro ⟨n, h⟩ k v hv
    obtain ⟨w, _, hw⟩ := get?_traverse h hv
    exact ⟨w, hw⟩
  · intro hall
    have hentries : ∀ es : List (String × α), (∀ e ∈ es, ∃ w, f e.1 e.2 = .ok w) →
        ∃ ws, traverseEntries f es = .ok ws := by
      intro es hes
      induction es with
      | nil => exact ⟨[], rfl⟩
      | cons e es ih =>
        rw [List.forall_mem_cons] at hes
        obtain ⟨w, hw⟩ := hes.1
        obtain ⟨ws, hws⟩ := ih hes.2
        exact ⟨(e.1, w) :: ws, by simp [traverseEntries, hw, hws]⟩
    obtain ⟨ws, hws⟩ := hentries m.entries fun e he => hall (mem_entries_iff.1 he)
    exact ⟨⟨ws, by rw [keys_traverseEntries hws]; exact m.nodup⟩, traverse_eq_ok.2 hws⟩

/-- A traversal relates the values of the two maps in order. -/
theorem forall₂_of_traverse (h : m.traverse f = .ok n) :
    List.Forall₂ (fun v w => ∃ k, f k v = .ok w) m.values n.values := by
  have hes := traverseEntries_eq_ok.1 (traverse_eq_ok.1 h)
  unfold values
  rw [List.forall₂_map_left_iff, List.forall₂_map_right_iff]
  exact hes.imp fun e w hew => ⟨e.1, hew.2⟩

/-! ## Replacing values -/

theorem entries_map (g : String → α → β) (m : OrderedMap α) :
    (m.map g).entries = m.entries.map fun e => (e.1, g e.1 e.2) := rfl

theorem map_self (m : OrderedMap α) : (m.map fun _ v => v) = m :=
  ext ((entries_map _ m).trans (List.map_id _))

theorem values_map (g : String → α → β) (m : OrderedMap α) :
    (m.map g).values = m.entries.map fun e => g e.1 e.2 := by
  unfold values
  rw [entries_map, List.map_map]
  rfl

theorem get?_map (g : String → α → β) (m : OrderedMap α) (k : String) :
    (m.map g).get? k = (m.get? k).map (g k) := by
  unfold get?
  rw [entries_map]
  generalize m.entries = es
  induction es with
  | nil => rfl
  | cons e es ih =>
    obtain ⟨j, v⟩ := e
    by_cases hj : j = k
    · subst hj
      simp [lookup?]
    · simpa [lookup?, hj] using ih

/-- A traversal in which every value has an outcome replaces the values by their outcomes. -/
theorem traverse_eq_ok_map {g : String → α → β} :
    m.traverse f = .ok (m.map g) ↔ ∀ e ∈ m.entries, f e.1 e.2 = .ok (g e.1 e.2) := by
  rw [traverse_eq_ok, traverseEntries_eq_ok, entries_map, List.forall₂_map_right_iff,
    List.forall₂_same]
  simp

/-- Traversing a map whose values were replaced. -/
theorem traverse_map {γ : Type u} (g : String → γ → α) (l : OrderedMap γ) :
    (l.map g).traverse f = l.traverse fun k v => f k (g k v) := by
  have hentries : ∀ es : List (String × γ), traverseEntries f (es.map fun e => (e.1, g e.1 e.2)) =
      traverseEntries (fun k v => f k (g k v)) es := by
    intro es
    induction es with
    | nil => rfl
    | cons e es ih => simp only [List.map_cons, traverseEntries, ih]
  cases h : l.traverse fun k v => f k (g k v) with
  | ok n =>
    rw [traverse_eq_ok] at h ⊢
    exact (hentries l.entries).trans h
  | error err =>
    rw [traverse_eq_error] at h ⊢
    exact (hentries l.entries).trans h

/-- Replacing the values after a traversal. -/
theorem map_traverse {γ : Type v} (g : String → β → γ) :
    (m.traverse f).map (fun n => n.map g) = m.traverse fun k v => (f k v).map (g k) := by
  have hentries : ∀ es : List (String × α),
      (traverseEntries f es).map (fun ws => ws.map fun w => (w.1, g w.1 w.2)) =
        traverseEntries (fun k v => (f k v).map (g k)) es := by
    intro es
    induction es with
    | nil => rfl
    | cons e es ih =>
      obtain ⟨k, v⟩ := e
      simp only [traverseEntries, ← ih]
      cases f k v with
      | error err => rfl
      | ok w => cases traverseEntries f es <;> rfl
  cases h : m.traverse f with
  | ok n =>
    refine (traverse_eq_ok.2 ?_).symm
    rw [← hentries, traverse_eq_ok.1 h]
    rfl
  | error err =>
    refine (traverse_eq_error.2 ?_).symm
    rw [← hentries, traverse_eq_error.1 h]
    rfl

theorem insert_map (g : String → α → β) (m : OrderedMap α) (k : String) (v : α) :
    (m.insert k v).map g = (m.map g).insert k (g k v) := by
  apply ext
  change (insertEntry k v m.entries).map _ = insertEntry k (g k v) (m.entries.map _)
  generalize m.entries = es
  induction es with
  | nil => rfl
  | cons e es ih =>
    obtain ⟨j, w⟩ := e
    by_cases hj : j = k
    · subst hj
      simp [insertEntry]
    · simp [insertEntry, hj, ih]

theorem ofList_map (g : String → α → β) (es : List (String × α)) :
    (ofList es).map g = ofList (es.map fun e => (e.1, g e.1 e.2)) := by
  suffices h : ∀ m : OrderedMap α, (es.foldl (fun m e => m.insert e.1 e.2) m).map g =
      (es.map fun e => (e.1, g e.1 e.2)).foldl (fun n e => n.insert e.1 e.2) (m.map g) from h empty
  induction es with
  | nil => exact fun m => rfl
  | cons e es ih =>
    intro m
    rw [List.foldl_cons, List.map_cons, List.foldl_cons, ih, insert_map]

/-- A traversal whose results are put together with their keys. -/
theorem mapM_entries {γ : Type v} (m : OrderedMap α) (f : String → α → Except ε β)
    (g : String → β → γ) : (m.entries.mapM fun e => (f e.1 e.2).map (g e.1)) =
      (m.traverse f).map fun n => n.entries.map fun w => g w.1 w.2 := by
  have hentries : ∀ es : List (String × α), (es.mapM fun e => (f e.1 e.2).map (g e.1)) =
      (traverseEntries f es).map (List.map fun w => g w.1 w.2) := by
    intro es
    induction es with
    | nil => rfl
    | cons e es ih =>
      obtain ⟨k, v⟩ := e
      rw [List.mapM_cons, ih, traverseEntries]
      cases f k v with
      | error err => rfl
      | ok w => cases traverseEntries f es <;> rfl
  rw [hentries]
  cases h : m.traverse f with
  | error err =>
    rw [traverse_eq_error.1 h]
    rfl
  | ok n =>
    rw [traverse_eq_ok.1 h]
    rfl

/-! ## Changing values by their keys -/

section Modify

variable {k : String} {v : α} {es ws : List (String × α)}

theorem modify_modify (k : String) (f g : α → α) (m : OrderedMap α) :
    (m.modify k f).modify k g = m.modify k (g ∘ f) := by
  apply ext
  change modifyEntry k g (modifyEntry k f m.entries) = modifyEntry k (g ∘ f) m.entries
  induction m.entries with
  | nil => rfl
  | cons e es ih =>
    obtain ⟨k', v⟩ := e
    by_cases hk : k' = k
    · simp [modifyEntry, hk]
    · simp [modifyEntry, hk, ih]

theorem modify_id (k : String) (m : OrderedMap α) : m.modify k id = m := by
  apply ext
  change modifyEntry k id m.entries = m.entries
  induction m.entries with
  | nil => rfl
  | cons e es ih =>
    obtain ⟨k', v⟩ := e
    by_cases hk : k' = k
    · simp [modifyEntry, hk]
    · simp [modifyEntry, hk, ih]

theorem foldl_modifyEntry_cons (g : String × α → α → α) (h : ∀ w ∈ ws, w.1 ≠ k) :
    ws.foldl (fun es w => modifyEntry w.1 (g w) es) ((k, v) :: es) =
      (k, v) :: ws.foldl (fun es w => modifyEntry w.1 (g w) es) es := by
  induction ws generalizing es with
  | nil => rfl
  | cons w ws ih =>
    rw [List.forall_mem_cons] at h
    rw [List.foldl_cons, List.foldl_cons, modifyEntry, if_neg (Ne.symm h.1), ih h.2]

/-- Changing the values one by one into those that `ws` has at their keys gives `ws`: the first
entry is changed first, and no later key is its own. -/
theorem foldl_modifyEntry_eq {g : String × α → α → α}
    (h : List.Forall₂ (fun e w => w.1 = e.1 ∧ g w e.2 = w.2) es ws)
    (hnodup : (ws.map Prod.fst).Nodup) :
    ws.foldl (fun es w => modifyEntry w.1 (g w) es) es = ws := by
  induction h with
  | nil => rfl
  | @cons e w es ws hew _ ih =>
    obtain ⟨k, v⟩ := e
    obtain ⟨k', v'⟩ := w
    obtain ⟨rfl, hv⟩ := hew
    rw [List.map_cons, List.nodup_cons] at hnodup
    have hother : ∀ w ∈ ws, w.1 ≠ k' := fun w hw heq =>
      hnodup.1 (List.mem_map.2 ⟨w, hw, heq⟩)
    rw [List.foldl_cons, modifyEntry, if_pos rfl, foldl_modifyEntry_cons g hother, ih hnodup.2]
    exact congrArg (fun v => (k', v) :: ws) hv

theorem entries_foldl_modify (g : String × α → α → α) (ws : List (String × α))
    (m : OrderedMap α) : (ws.foldl (fun m w => m.modify w.1 (g w)) m).entries =
      ws.foldl (fun es w => modifyEntry w.1 (g w) es) m.entries := by
  induction ws generalizing m with
  | nil => rfl
  | cons w ws ih => exact ih (m.modify w.1 (g w))

theorem foldl_modify_eq {m n : OrderedMap α} (g : String × α → α → α)
    (h : List.Forall₂ (fun e w => w.1 = e.1 ∧ g w e.2 = w.2) m.entries n.entries) :
    n.entries.foldl (fun m w => m.modify w.1 (g w)) m = n := by
  apply ext
  rw [entries_foldl_modify]
  exact foldl_modifyEntry_eq h n.nodup

end Modify

end OrderedMap
end OrmGen
