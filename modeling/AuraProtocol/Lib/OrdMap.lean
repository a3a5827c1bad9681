import Mathlib.Data.List.Sigma
import Mathlib.Data.List.DropRight
import Mathlib.Data.Finset.Card
import Mathlib.Order.UpperLower.Basic

/-!
# Ordered finite maps

A map from a linear order, held as the list of its entries in increasing key
order.  The list is the iteration order of a search tree, so the operations that
speak of "the first entry" (`popFirst`, `popWhile`, `popTo`) are list
operations, and two maps with the same lookups are equal (`ext_get?`).

The eviction lemmas are about upper sets of keys: an eviction that pops from the
front can only lose the smallest keys, so it keeps every upper set that is small
enough to fit (`get?_popTo_of_upper`).
-/

/-- A finite map whose entries are listed in strictly increasing key order. -/
structure OrdMap (K V : Type) [LinearOrder K] where
  /-- The entries, smallest key first. -/
  entries : List (Sigma fun _ : K => V)
  /-- The keys increase strictly along the list. -/
  sorted : entries.Pairwise fun a b => a.1 < b.1

namespace OrdMap

open List

variable {K V : Type} [LinearOrder K]

variable {n : ℕ} {p : K → Bool} {α : Type} {k : K} {v : V} {es : List (Sigma fun _ : K => V)}

instance [DecidableEq V] : DecidableEq (OrdMap K V) := fun m m' =>
  decidable_of_iff (m.entries = m'.entries)
    ⟨fun h => by cases m; cases m'; cases h; rfl, fun h => h ▸ rfl⟩

/-- The map with no entry. -/
def empty : OrdMap K V := ⟨[], List.Pairwise.nil⟩

instance : EmptyCollection (OrdMap K V) := ⟨empty⟩

/-- The value stored under a key. -/
def get? (m : OrdMap K V) (k : K) : Option V := m.entries.dlookup k

/-- The number of entries. -/
def size (m : OrdMap K V) : ℕ := m.entries.length

/-- The keys that have an entry. -/
def keys (m : OrdMap K V) : Finset K := m.entries.keys.toFinset

theorem nodupKeys (m : OrdMap K V) : m.entries.NodupKeys :=
  nodupKeys_iff_pairwise.mpr (m.sorted.imp ne_of_lt)

variable {m : OrdMap K V}

/-- Maps with the same lookups are equal: the order of the entries is forced. -/
theorem ext_get? {m' : OrdMap K V} (h : ∀ k, m.get? k = m'.get? k) : m = m' := by
  have hperm : m.entries.Perm m'.entries :=
    lookup_ext m.nodupKeys m'.nodupKeys fun x y => by
      rw [show m.entries.dlookup x = m'.entries.dlookup x from h x]
  have heq : m.entries = m'.entries :=
    hperm.eq_of_pairwise (fun a b _ _ hab hba => absurd hab hba.asymm) m.sorted m'.sorted
  cases m; cases m'; cases heq; rfl

@[simp] theorem get?_empty (k : K) : (∅ : OrdMap K V).get? k = none := rfl

@[simp] theorem size_empty : (∅ : OrdMap K V).size = 0 := rfl

theorem mem_keys : k ∈ m.keys ↔ (m.get? k).isSome := by
  rw [keys, mem_toFinset, get?, dlookup_isSome]

theorem mem_keys_of_get? (h : m.get? k = some v) : k ∈ m.keys := mem_keys.mpr (by rw [h]; rfl)

theorem get?_eq_none_iff : m.get? k = none ↔ k ∉ m.keys := by
  rw [mem_keys]
  cases m.get? k <;> simp

theorem mem_entries_iff : (⟨k, v⟩ : Sigma fun _ : K => V) ∈ m.entries ↔ m.get? k = some v :=
  (mem_dlookup_iff m.nodupKeys).symm

@[simp] theorem card_keys (m : OrdMap K V) : m.keys.card = m.size := by
  rw [keys, toFinset_card_of_nodup m.nodupKeys, List.keys, length_map, size]

/-! ## Insertion -/

/-- Insertion into a key-ordered entry list, replacing an entry with the same key. -/
def insertEntry (k : K) (v : V) : List (Sigma fun _ : K => V) → List (Sigma fun _ : K => V)
  | [] => [⟨k, v⟩]
  | e :: es =>
    if k < e.1 then ⟨k, v⟩ :: e :: es
    else if k = e.1 then ⟨k, v⟩ :: es
    else e :: insertEntry k v es

theorem mem_insertEntry {a : Sigma fun _ : K => V} (h : a ∈ insertEntry k v es) :
    a = ⟨k, v⟩ ∨ a ∈ es := by
  induction es with
  | nil => exact .inl (mem_singleton.mp h)
  | cons e es ih =>
    rw [insertEntry] at h
    split_ifs at h with hlt heq
    · exact (mem_cons.mp h).imp_right id
    · exact (mem_cons.mp h).imp_right (mem_cons_of_mem _)
    · rcases mem_cons.mp h with rfl | h
      · exact .inr mem_cons_self
      · exact (ih h).imp_right (mem_cons_of_mem _)

theorem insertEntry_sorted (k : K) (v : V) (h : es.Pairwise fun a b => a.1 < b.1) :
    (insertEntry k v es).Pairwise fun a b => a.1 < b.1 := by
  induction es with
  | nil => exact pairwise_singleton _ _
  | cons e es ih =>
    rw [insertEntry]
    have hhead := (pairwise_cons.mp h).1
    have htail := (pairwise_cons.mp h).2
    split_ifs with hlt heq
    · refine pairwise_cons.mpr ⟨fun a ha => ?_, h⟩
      rcases mem_cons.mp ha with rfl | ha
      · exact hlt
      · exact hlt.trans (hhead a ha)
    · exact pairwise_cons.mpr ⟨fun a ha => heq ▸ hhead a ha, htail⟩
    · refine pairwise_cons.mpr ⟨fun a ha => ?_, ih htail⟩
      rcases mem_insertEntry ha with rfl | ha
      · exact lt_of_le_of_ne (not_lt.mp hlt) (Ne.symm heq)
      · exact hhead a ha

theorem dlookup_cons_of_ne {k' : K} (v : V) (es : List (Sigma fun _ : K => V)) (h : k' ≠ k) :
    List.dlookup k' (⟨k, v⟩ :: es) = es.dlookup k' :=
  dlookup_cons_ne _ (⟨k, v⟩ : Sigma fun _ : K => V) h

theorem dlookup_insertEntry (k k' : K) (v : V) (es : List (Sigma fun _ : K => V)) :
    (insertEntry k v es).dlookup k' = if k' = k then some v else es.dlookup k' := by
  induction es with
  | nil =>
    by_cases hk : k' = k
    · subst hk; simp [insertEntry]
    · rw [if_neg hk]
      exact dlookup_cons_of_ne v [] hk
  | cons e es ih =>
    obtain ⟨ke, ve⟩ := e
    rw [insertEntry]
    by_cases hk : k' = k
    · subst hk
      rw [if_pos rfl]
      split_ifs with hlt heq
      · simp
      · simp
      · rw [dlookup_cons_of_ne ve _ heq, ih, if_pos rfl]
    · rw [if_neg hk]
      split_ifs with hlt heq
      · exact dlookup_cons_of_ne v _ hk
      · simp only at heq
        subst heq
        rw [dlookup_cons_of_ne v _ hk, dlookup_cons_of_ne ve _ hk]
      · by_cases hke : k' = ke
        · subst hke; simp
        · rw [dlookup_cons_of_ne ve _ hke, dlookup_cons_of_ne ve _ hke, ih, if_neg hk]

/-- Stores a value under a key, replacing what was there. -/
def insert (m : OrdMap K V) (k : K) (v : V) : OrdMap K V :=
  ⟨insertEntry k v m.entries, insertEntry_sorted k v m.sorted⟩

theorem get?_insert (m : OrdMap K V) (k k' : K) (v : V) :
    (m.insert k v).get? k' = if k' = k then some v else m.get? k' :=
  dlookup_insertEntry k k' v m.entries

@[simp] theorem get?_insert_self (m : OrdMap K V) (k : K) (v : V) :
    (m.insert k v).get? k = some v := by rw [get?_insert, if_pos rfl]

theorem keys_insert (m : OrdMap K V) (k : K) (v : V) :
    (m.insert k v).keys = Insert.insert k m.keys := by
  ext k'
  rw [mem_keys, get?_insert, Finset.mem_insert, mem_keys]
  split_ifs with h <;> simp [h]

theorem size_insert_of_get?_eq_none (v : V) (h : m.get? k = none) :
    (m.insert k v).size = m.size + 1 := by
  rw [← card_keys, ← card_keys, keys_insert,
    Finset.card_insert_of_notMem (get?_eq_none_iff.mp h)]

theorem size_insert_le (m : OrdMap K V) (k : K) (v : V) :
    (m.insert k v).size ≤ m.size + 1 := by
  rw [← card_keys, ← card_keys, keys_insert]
  exact Finset.card_insert_le _ _

/-! ## Removal -/

/-- Removes the entry of a key, if there is one. -/
def erase (m : OrdMap K V) (k : K) : OrdMap K V :=
  ⟨m.entries.kerase k, m.sorted.sublist (kerase_sublist k m.entries)⟩

theorem get?_erase (m : OrdMap K V) (k k' : K) :
    (m.erase k).get? k' = if k' = k then none else m.get? k' := by
  split_ifs with h
  · subst h
    exact dlookup_kerase k' m.nodupKeys
  · exact dlookup_kerase_ne h

@[simp] theorem get?_erase_self (m : OrdMap K V) (k : K) : (m.erase k).get? k = none := by
  rw [get?_erase, if_pos rfl]

theorem keys_erase (m : OrdMap K V) (k : K) : (m.erase k).keys = m.keys.erase k := by
  ext k'
  rw [mem_keys, get?_erase, Finset.mem_erase, mem_keys]
  split_ifs with h <;> simp [h]

theorem size_erase_le (m : OrdMap K V) (k : K) : (m.erase k).size ≤ m.size := by
  rw [← card_keys, ← card_keys, keys_erase]
  exact Finset.card_le_card (Finset.erase_subset _ _)

/-- Putting back what was just removed gives the map back. -/
theorem insert_erase_of_get?_eq_some (h : m.get? k = some v) : (m.erase k).insert k v = m := by
  refine ext_get? fun k' => ?_
  rw [get?_insert, get?_erase]
  split_ifs with hk
  · rw [hk, h]
  · rfl

/-! ## Eviction from the front -/

/-- Pops first entries as long as their key satisfies `p`. -/
def popWhile (p : K → Bool) (m : OrdMap K V) : OrdMap K V :=
  ⟨m.entries.dropWhile fun e => p e.1, m.sorted.sublist (dropWhile_sublist _)⟩

/-- Drops first elements as long as there are more than `n`. -/
def popListTo {α : Type} (n : ℕ) : List α → List α
  | [] => []
  | a :: as => if n < (a :: as).length then popListTo n as else a :: as

theorem popListTo_eq_drop (n : ℕ) (as : List α) : popListTo n as = as.drop (as.length - n) := by
  induction as with
  | nil => simp [popListTo]
  | cons a as ih =>
    rw [popListTo]
    split_ifs with h
    · have hsub : (a :: as).length - n = (as.length - n) + 1 := by
        rw [length_cons] at h ⊢; omega
      rw [hsub, drop_succ_cons, ih]
    · rw [Nat.sub_eq_zero_of_le (not_lt.mp h), drop_zero]

theorem popListTo_sublist (n : ℕ) (as : List α) : (popListTo n as).Sublist as := by
  rw [popListTo_eq_drop]
  exact drop_sublist _ _

theorem length_popListTo (n : ℕ) (as : List α) : (popListTo n as).length = min n as.length := by
  rw [popListTo_eq_drop, length_drop]
  omega

/-- Pops first entries until at most `n` are left. -/
def popTo (n : ℕ) (m : OrdMap K V) : OrdMap K V :=
  ⟨popListTo n m.entries, m.sorted.sublist (popListTo_sublist n m.entries)⟩

theorem size_popTo (n : ℕ) (m : OrdMap K V) : (m.popTo n).size = min n m.size :=
  length_popListTo n m.entries

theorem popTo_of_size_le (h : m.size ≤ n) : m.popTo n = m := by
  obtain ⟨entries, sorted⟩ := m
  have hlen : entries.length - n = 0 := Nat.sub_eq_zero_of_le h
  simp only [popTo, popListTo_eq_drop, hlen, drop_zero]

/-- A sublist of the entries only has entries of the map. -/
theorem get?_of_sublist {m' : OrdMap K V} (h : m'.entries.Sublist m.entries)
    (hk : m'.get? k = some v) : m.get? k = some v :=
  mem_entries_iff.mp (h.subset (mem_entries_iff.mpr hk))

theorem get?_of_get?_popTo (h : (m.popTo n).get? k = some v) : m.get? k = some v :=
  get?_of_sublist (popListTo_sublist n m.entries) h

theorem get?_of_get?_popWhile (h : (m.popWhile p).get? k = some v) : m.get? k = some v :=
  get?_of_sublist (dropWhile_sublist _) h

theorem keys_popTo_subset (n : ℕ) (m : OrdMap K V) : (m.popTo n).keys ⊆ m.keys := by
  intro k hk
  obtain ⟨v, hv⟩ := Option.isSome_iff_exists.mp (mem_keys.mp hk)
  exact mem_keys_of_get? (get?_of_get?_popTo hv)

theorem keys_popWhile_subset (p : K → Bool) (m : OrdMap K V) : (m.popWhile p).keys ⊆ m.keys := by
  intro k hk
  obtain ⟨v, hv⟩ := Option.isSome_iff_exists.mp (mem_keys.mp hk)
  exact mem_keys_of_get? (get?_of_get?_popWhile hv)

theorem popWhile_of_forall (h : ∀ k ∈ m.keys, p k = false) : m.popWhile p = m := by
  have hhead : ∀ e ∈ m.entries.head?, p e.1 = false := fun e he =>
    h e.1 (mem_toFinset.mpr (mem_map_of_mem (mem_of_mem_head? he)))
  obtain ⟨entries, sorted⟩ := m
  cases entries with
  | nil => rfl
  | cons e es =>
    have he := hhead e rfl
    simp [popWhile, he]

/-- Popping the keys of a lower set leaves exactly the other keys. -/
theorem get?_popWhile (hp : ∀ k k', k ≤ k' → p k' = true → p k = true) (m : OrdMap K V) (k : K) :
    (m.popWhile p).get? k = if p k = true then none else m.get? k := by
  obtain ⟨entries, sorted⟩ := m
  change (entries.dropWhile fun e => p e.1).dlookup k = if p k = true then none else entries.dlookup k
  induction entries with
  | nil => simp
  | cons e es ih =>
    obtain ⟨ke, ve⟩ := e
    have htail := (pairwise_cons.mp sorted).2
    rw [dropWhile_cons]
    split_ifs with hke hk hk
    · rw [ih htail, if_pos hk]
    · have hne : k ≠ ke := fun h => hk (h ▸ hke)
      rw [ih htail, if_neg hk, dlookup_cons_of_ne ve _ hne]
    · -- `p k` with `¬ p ke` puts `k` before the first entry.
      have hlt : k < ke := lt_of_not_ge fun h => hke (hp _ _ h hk)
      rw [dlookup_eq_none]
      intro hmem
      obtain ⟨e', he', rfl⟩ := mem_map.mp hmem
      rcases mem_cons.mp he' with rfl | he'
      · exact lt_irrefl _ hlt
      · exact lt_asymm hlt ((pairwise_cons.mp sorted).1 e' he')
    · rfl

/-- Popping down to `n` entries keeps every upper set of at most `n` keys. -/
theorem get?_popTo_of_upper {U : K → Prop} [DecidablePred U] (hU : ∀ k k', k ≤ k' → U k → U k')
    (hcard : (m.keys.filter U).card ≤ n) (hk : U k) : (m.popTo n).get? k = m.get? k := by
  obtain ⟨entries, sorted⟩ := m
  change (popListTo n entries).dlookup k = entries.dlookup k
  induction entries with
  | nil => rfl
  | cons e es ih =>
    obtain ⟨ke, ve⟩ := e
    have htail := (pairwise_cons.mp sorted).2
    rw [popListTo]
    split_ifs with hlen
    · have hsub : (OrdMap.keys ⟨es, htail⟩).filter U ⊆ (OrdMap.keys ⟨⟨ke, ve⟩ :: es, sorted⟩).filter U :=
        Finset.filter_subset_filter _ fun a ha =>
          mem_toFinset.mpr (mem_cons_of_mem _ (mem_toFinset.mp ha))
      rw [ih htail ((Finset.card_le_card hsub).trans hcard)]
      have hne : k ≠ ke := by
        rintro rfl
        -- All keys are in the upper set, so more than `n` of them are.
        have hall : (OrdMap.keys ⟨⟨k, ve⟩ :: es, sorted⟩).filter U =
            OrdMap.keys ⟨⟨k, ve⟩ :: es, sorted⟩ := by
          refine Finset.filter_true_of_mem fun a ha => ?_
          rcases mem_cons.mp (mem_toFinset.mp ha) with rfl | ha
          · exact hk
          · obtain ⟨e', he', rfl⟩ := mem_map.mp ha
            exact hU _ _ ((pairwise_cons.mp sorted).1 e' he').le hk
        rw [hall, card_keys] at hcard
        exact absurd hlen (not_lt.mpr hcard)
      exact (dlookup_cons_of_ne ve _ hne).symm
    · rfl

/-- What popping leaves is an upper set of the keys. -/
theorem mem_keys_popTo_of_le {k' : K} (hle : k ≤ k') (hk : k ∈ (m.popTo n).keys) (hk' : k' ∈ m.keys) :
    k' ∈ (m.popTo n).keys := by
  have hentries : (m.popTo n).entries = m.entries.drop (m.entries.length - n) :=
    popListTo_eq_drop n m.entries
  have hsplit := take_append_drop (m.entries.length - n) m.entries
  have hsorted := m.sorted
  rw [keys, hentries, mem_toFinset] at hk ⊢
  rw [keys, mem_toFinset, ← hsplit, List.keys, map_append, mem_append] at hk'
  rcases hk' with hold | hkept
  · obtain ⟨e, he, rfl⟩ := mem_map.mp hk
    obtain ⟨e', he', rfl⟩ := mem_map.mp hold
    rw [← hsplit] at hsorted
    exact absurd hle ((pairwise_append.mp hsorted).2.2 e' he' e he).not_ge
  · exact hkept

/-- Popping down to `n` entries keeps the keys from which on there are at most `n`. -/
theorem mem_keys_popTo :
    k ∈ (m.popTo n).keys ↔ k ∈ m.keys ∧ (m.keys.filter fun k' => k ≤ k').card ≤ n := by
  constructor
  · intro hk
    refine ⟨keys_popTo_subset n m hk, ?_⟩
    have hsub : (m.keys.filter fun k' => k ≤ k') ⊆ (m.popTo n).keys := by
      intro k' hk'
      obtain ⟨hmem, hle⟩ := Finset.mem_filter.mp hk'
      exact mem_keys_popTo_of_le hle hk hmem
    refine (Finset.card_le_card hsub).trans ?_
    rw [card_keys, size_popTo]
    exact min_le_left _ _
  · rintro ⟨hk, hcard⟩
    rw [mem_keys, get?_popTo_of_upper (U := fun k' => k ≤ k')
      (fun a b hab hka => hka.trans hab) hcard le_rfl, ← mem_keys]
    exact hk

/-- The elements of a sorted list that are dropped to leave the last `n`. -/
theorem mem_take_length_sub {l : List K} (h : l.Pairwise (· < ·)) {x : K} (hx : x ∈ l) (n : ℕ) :
    x ∈ l.take (l.length - n) ↔ n < (l.filter fun y => x ≤ y).length := by
  induction l with
  | nil => cases hx
  | cons a l ih =>
    obtain ⟨hhead, htail⟩ := pairwise_cons.mp h
    by_cases hn : n ≤ l.length
    · have hlen : (a :: l).length - n = l.length - n + 1 := by
        rw [length_cons]
        omega
      rw [hlen, take_succ_cons, mem_cons, filter_cons]
      rcases mem_cons.mp hx with rfl | hx
      · have hall : (l.filter fun y => x ≤ y) = l :=
          filter_eq_self.mpr fun y hy => decide_eq_true (hhead y hy).le
        rw [if_pos (decide_eq_true le_rfl), hall, length_cons]
        exact iff_of_true (.inl rfl) (Nat.lt_succ_of_le hn)
      · have hlt := hhead x hx
        have hdecide : ¬ decide (x ≤ a) = true := by
          rw [decide_eq_true_iff]
          exact hlt.not_ge
        rw [if_neg hdecide, ← ih htail hx]
        exact or_iff_right hlt.ne'
    · rw [Nat.sub_eq_zero_of_le (by rw [length_cons]; omega), take_zero]
      have hlen := length_filter_le (fun y => decide (x ≤ y)) (a :: l)
      rw [length_cons] at hlen
      exact iff_of_false not_mem_nil (by omega)

/-- Erasing several keys. -/
theorem get?_foldl_erase (m : OrdMap K V) (ks : List K) (k : K) :
    (ks.foldl erase m).get? k = if k ∈ ks then none else m.get? k := by
  induction ks generalizing m with
  | nil => rfl
  | cons a ks ih =>
    rw [foldl_cons, ih, get?_erase]
    by_cases hk : k ∈ ks
    · rw [if_pos hk, if_pos (mem_cons_of_mem a hk)]
    · simp only [mem_cons, hk, or_false, if_false]

/-! ## Writing a map out and reading it back -/

/-- The entries as pairs, smallest key first. -/
def toList (m : OrdMap K V) : List (K × V) := m.entries.map fun e => (e.1, e.2)

/-- Inserts the entries of a list one after the other. -/
def insertAll (m : OrdMap K V) (es : List (K × V)) : OrdMap K V :=
  es.foldl (fun m e => m.insert e.1 e.2) m

/-- A key that the list does not have keeps its value. -/
theorem get?_insertAll_of_notMem {es : List (K × V)} (h : ∀ v, (k, v) ∉ es) :
    (m.insertAll es).get? k = m.get? k := by
  induction es generalizing m with
  | nil => rfl
  | cons e es ih =>
    have hne : k ≠ e.1 := by
      rintro rfl
      exact h e.2 mem_cons_self
    rw [insertAll, foldl_cons]
    exact (ih fun v hv => h v (mem_cons_of_mem _ hv)).trans
      ((get?_insert m e.1 k e.2).trans (if_neg hne))

/-- A key that the list has once gets the list's value. -/
theorem get?_insertAll_of_mem {es : List (K × V)} (hes : es.Pairwise fun a b => a.1 < b.1)
    (h : (k, v) ∈ es) : (m.insertAll es).get? k = some v := by
  induction es generalizing m with
  | nil => cases h
  | cons e es ih =>
    obtain ⟨hhead, htail⟩ := pairwise_cons.mp hes
    rcases mem_cons.mp h with rfl | h
    · have hnot : ∀ v', (k, v') ∉ es := fun v' hv' => lt_irrefl k (hhead (k, v') hv')
      exact (get?_insertAll_of_notMem hnot).trans (get?_insert_self m k v)
    · exact ih htail h

theorem mem_toList : (k, v) ∈ m.toList ↔ m.get? k = some v := by
  rw [← mem_entries_iff, toList, mem_map]
  constructor
  · rintro ⟨⟨k', v'⟩, he, h⟩
    cases h
    exact he
  · exact fun h => ⟨_, h, rfl⟩

theorem toList_sorted (m : OrdMap K V) : m.toList.Pairwise fun a b => a.1 < b.1 :=
  pairwise_map.mpr m.sorted

/-- Reading back the entries of a map gives the map. -/
theorem insertAll_toList (m : OrdMap K V) : (∅ : OrdMap K V).insertAll m.toList = m := by
  refine ext_get? fun k => ?_
  cases h : m.get? k with
  | none =>
    refine get?_insertAll_of_notMem fun v hv => ?_
    rw [mem_toList.mp hv] at h
    cases h
  | some v => exact get?_insertAll_of_mem m.toList_sorted (mem_toList.mpr h)

end OrdMap
