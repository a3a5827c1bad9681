import AuraProtocol.Crypto.Instance
import AuraProtocol.Group.Store

/-!
# The cache of skipped sender keys

`enforce_cache_limit` evicts twice.  Each sender keeps its last generations, up to the limit
per sender; what is left is popped in the order of leaf and generation until the total fits.
`get?_trimmed` and `mem_keys_enforceCacheLimit` say which keys stay.

The second eviction looks at the leaf before the generation, so it can drop a key that was
cached a moment ago in favour of older keys of senders with a higher leaf.
`fresh_keys_kept_iff` says exactly when that does not happen, in every state of a store.
While nothing is evicted, a store answers every request as the sender's own chain does, once
(`requests_served`).
-/

namespace AuraProtocol.Group

open Fallible SenderKeyChain List OrdMap

variable {requests : List (ℕ × ℕ)}

namespace SenderKeyStore

variable {c : Crypto} {store store' : SenderKeyStore} {chain : SenderKeyChain}
  {m : OrdMap (ℕ ×ₗ ℕ) Bytes} {i generation : ℕ} {k : ℕ ×ₗ ℕ} {g : ℕ} {asked : Finset (ℕ × ℕ)}

/-! ## What eviction keeps -/

/-- How many keys of its sender are cached from a key on. -/
def rank (m : OrdMap (ℕ ×ₗ ℕ) Bytes) (k : ℕ ×ₗ ℕ) : ℕ :=
  (m.keys.filter fun k' => (ofLex k').1 = (ofLex k).1 ∧ k ≤ k').card

/-- How many keys of a sender are cached. -/
def count (m : OrdMap (ℕ ×ₗ ℕ) Bytes) (sender : ℕ) : ℕ :=
  (m.keys.filter fun k => (ofLex k).1 = sender).card

theorem rank_le_count (m : OrdMap (ℕ ×ₗ ℕ) Bytes) (k : ℕ ×ₗ ℕ) : rank m k ≤ count m (ofLex k).1 :=
  Finset.card_le_card fun k' hk' => by
    obtain ⟨hmem, hsender, -⟩ := Finset.mem_filter.mp hk'
    exact Finset.mem_filter.mpr ⟨hmem, hsender⟩

theorem cachedOf_sorted (m : OrdMap (ℕ ×ₗ ℕ) Bytes) (sender : ℕ) :
    (cachedOf m sender).Pairwise (· < ·) :=
  (pairwise_map.mpr m.toList_sorted).filter _

theorem mem_cachedOf {sender : ℕ} :
    k ∈ cachedOf m sender ↔ k ∈ m.keys ∧ (ofLex k).1 = sender := by
  have hkeys : m.toList.map Prod.fst = m.entries.keys := by
    rw [OrdMap.toList, map_map]
    rfl
  rw [cachedOf, mem_filter, hkeys, OrdMap.keys, mem_toFinset, beq_iff_eq]

section

variable (m : OrdMap (ℕ ×ₗ ℕ) Bytes)

theorem length_filter_cachedOf (k : ℕ ×ₗ ℕ) :
    ((cachedOf m (ofLex k).1).filter fun k' => k ≤ k').length = rank m k := by
  have hnodup : ((cachedOf m (ofLex k).1).filter fun k' => k ≤ k').Nodup :=
    ((cachedOf_sorted m _).imp ne_of_lt).filter _
  rw [← toFinset_card_of_nodup hnodup, rank]
  congr 1
  ext k'
  simp only [mem_toFinset, mem_filter, Finset.mem_filter, mem_cachedOf,
    decide_eq_true_eq, and_assoc]

/-- The first eviction, for one sender: it keeps the last keys of the sender. -/
theorem get?_evictSender (limit : ℕ) (sender : ℕ) (k : ℕ ×ₗ ℕ) :
    (evictSender limit m sender).get? k =
      if (ofLex k).1 = sender ∧ limit < rank m k then none else m.get? k := by
  rw [evictSender, OrdMap.get?_foldl_erase]
  by_cases hk : k ∈ cachedOf m sender
  · obtain ⟨-, rfl⟩ := mem_cachedOf.mp hk
    simp only [mem_take_length_sub (cachedOf_sorted m _) hk, length_filter_cachedOf, true_and]
  · have htake : k ∉ (cachedOf m sender).take ((cachedOf m sender).length - limit) :=
      fun h => hk (mem_of_mem_take h)
    rw [if_neg htake]
    split_ifs with hevict
    · refine OrdMap.get?_eq_none_iff.mpr fun hmem => ?_
      exact hk (mem_cachedOf.mpr ⟨hmem, hevict.1⟩)
    · rfl

theorem rank_evictSender (limit : ℕ) {sender : ℕ}
    (h : (ofLex k).1 ≠ sender) : rank (evictSender limit m sender) k = rank m k := by
  rw [rank, rank]
  congr 1
  ext k'
  simp only [Finset.mem_filter, OrdMap.mem_keys, get?_evictSender]
  refine and_congr_left fun hk' => ?_
  rw [if_neg]
  rintro ⟨hsender, -⟩
  exact h (hk'.1.symm.trans hsender)

theorem get?_foldl_evictSender (limit : ℕ) {senders : List ℕ}
    (h : senders.Nodup) (k : ℕ ×ₗ ℕ) :
    (senders.foldl (evictSender limit) m).get? k =
      if (ofLex k).1 ∈ senders ∧ limit < rank m k then none else m.get? k := by
  induction senders generalizing m with
  | nil => rfl
  | cons sender senders ih =>
    obtain ⟨hnot, hnodup⟩ := nodup_cons.mp h
    rw [foldl_cons, ih _ hnodup, get?_evictSender]
    by_cases hk : (ofLex k).1 = sender
    · rw [if_neg fun hin => hnot (hk ▸ hin.1)]
      simp only [hk, true_and, mem_cons, true_or]
    · rw [rank_evictSender m limit hk]
      simp only [hk, false_and, if_false, mem_cons, false_or]

end

/-- The cache after the first eviction. -/
def trimmed (store : SenderKeyStore) : OrdMap (ℕ ×ₗ ℕ) Bytes :=
  ((store.skippedKeys.toList.map fun entry => (ofLex entry.1).1).dedup).foldl
    (evictSender store.maxSkippedPerSender) store.skippedKeys

theorem skippedKeys_enforceCacheLimit (store : SenderKeyStore) :
    store.enforceCacheLimit.skippedKeys = (trimmed store).popTo store.maxSkippedTotal := rfl

theorem get?_trimmed (store : SenderKeyStore) (k : ℕ ×ₗ ℕ) :
    (trimmed store).get? k =
      if store.maxSkippedPerSender < rank store.skippedKeys k then none
      else store.skippedKeys.get? k := by
  rw [trimmed, get?_foldl_evictSender _ _ (nodup_dedup _)]
  cases hget : store.skippedKeys.get? k with
  | none => rw [ite_self, ite_self]
  | some v =>
    have hsender : (ofLex k).1 ∈
        (store.skippedKeys.toList.map fun entry => (ofLex entry.1).1).dedup :=
      mem_dedup.mpr (mem_map.mpr ⟨(k, v), mem_toList.mpr hget, rfl⟩)
    simp only [hsender, true_and]

theorem mem_keys_trimmed :
    k ∈ (trimmed store).keys ↔
      k ∈ store.skippedKeys.keys ∧ rank store.skippedKeys k ≤ store.maxSkippedPerSender := by
  rw [OrdMap.mem_keys, get?_trimmed, OrdMap.mem_keys]
  split_ifs with hlimit
  · exact iff_of_false (by simp) fun h => hlimit.not_ge h.2
  · exact (and_iff_left (not_lt.mp hlimit)).symm

/-- A key stays if it is among the last ones of its sender, and then among the last ones of all. -/
theorem mem_keys_enforceCacheLimit :
    k ∈ store.enforceCacheLimit.skippedKeys.keys ↔
      (k ∈ store.skippedKeys.keys ∧ rank store.skippedKeys k ≤ store.maxSkippedPerSender) ∧
        ((trimmed store).keys.filter fun k' => k ≤ k').card ≤ store.maxSkippedTotal := by
  rw [skippedKeys_enforceCacheLimit, mem_keys_popTo, mem_keys_trimmed]

/-- Nothing is evicted while every sender and the total are within their limits. -/
theorem enforceCacheLimit_of_fits
    (hsender : ∀ sender, count store.skippedKeys sender ≤ store.maxSkippedPerSender)
    (htotal : store.skippedKeys.size ≤ store.maxSkippedTotal) : store.enforceCacheLimit = store := by
  have htrimmed : trimmed store = store.skippedKeys := by
    refine ext_get? fun k => ?_
    rw [get?_trimmed, if_neg]
    exact not_lt.mpr ((rank_le_count _ k).trans (hsender _))
  have hpop : (trimmed store).popTo store.maxSkippedTotal = store.skippedKeys := by
    rw [htrimmed, popTo_of_size_le htotal]
  change { store with skippedKeys := (trimmed store).popTo store.maxSkippedTotal } = store
  rw [hpop]

/-- After the first eviction every sender is within its limit. -/
theorem count_trimmed_le (store : SenderKeyStore) (sender : ℕ) :
    count (trimmed store) sender ≤ store.maxSkippedPerSender := by
  rcases Finset.eq_empty_or_nonempty
    ((trimmed store).keys.filter fun k => (ofLex k).1 = sender) with hempty | hne
  · rw [count, hempty]
    exact Nat.zero_le _
  · -- the first key that is left counts all the others in its rank
    have hmin := Finset.min'_mem _ hne
    obtain ⟨hmem, hsender⟩ := Finset.mem_filter.mp hmin
    refine le_trans (Finset.card_le_card fun k hk => ?_) (mem_keys_trimmed.mp hmem).2
    obtain ⟨hk', hks⟩ := Finset.mem_filter.mp hk
    exact Finset.mem_filter.mpr ⟨(mem_keys_trimmed.mp hk').1, hks.trans hsender.symm,
      Finset.min'_le _ _ hk⟩

theorem count_le_of_subset {m m' : OrdMap (ℕ ×ₗ ℕ) Bytes} (h : m'.keys ⊆ m.keys) (sender : ℕ) :
    count m' sender ≤ count m sender :=
  Finset.card_le_card (Finset.filter_subset_filter _ h)

/-- Once the limits are enforced they hold. -/
theorem enforceCacheLimit_within (store : SenderKeyStore) :
    (∀ sender, count store.enforceCacheLimit.skippedKeys sender ≤ store.maxSkippedPerSender) ∧
      store.enforceCacheLimit.skippedKeys.size ≤ store.maxSkippedTotal := by
  rw [skippedKeys_enforceCacheLimit]
  refine ⟨fun sender => ?_, ?_⟩
  · exact (count_le_of_subset (keys_popTo_subset _ _) sender).trans
      (count_trimmed_le store sender)
  · rw [size_popTo]
    exact min_le_left _ _

/-- The keys that a walk caches. -/
theorem get?_cacheSkipped_keysFrom (store : SenderKeyStore) (i : ℕ) (chain : SenderKeyChain)
    (n j g : ℕ) :
    (store.cacheSkipped i (chain.keysFrom c n)).skippedKeys.get? (toLex (j, g)) =
      if j = i ∧ chain.generation ≤ g ∧ g < chain.generation + n then some (chain.keyAt c g)
      else store.skippedKeys.get? (toLex (j, g)) := by
  induction n with
  | zero =>
    rw [if_neg (by omega)]
    rfl
  | succ n ih =>
    have hsnoc : chain.keysFrom c (n + 1) =
        chain.keysFrom c n ++ [(chain.generation + n, (chain.walk c n).messageKey c)] := by
      rw [keysFrom, range_succ, map_append]
      rfl
    have hinsert : (store.cacheSkipped i (chain.keysFrom c (n + 1))).skippedKeys =
        (store.cacheSkipped i (chain.keysFrom c n)).skippedKeys.insert
          (toLex (i, chain.generation + n)) ((chain.walk c n).messageKey c) := by
      rw [cacheSkipped, hsnoc, foldl_append]
      rfl
    rw [hinsert, OrdMap.get?_insert, ih]
    by_cases hnew : j = i ∧ g = chain.generation + n
    · obtain ⟨rfl, rfl⟩ := hnew
      rw [if_pos rfl, if_pos (by omega), keyAt, Nat.add_sub_cancel_left]
    · have hne : toLex (j, g) ≠ toLex (i, chain.generation + n) := by
        intro heq
        have hpair := Prod.mk.inj (toLex.injective heq)
        exact hnew hpair
      rw [if_neg hne]
      by_cases hold : j = i ∧ chain.generation ≤ g ∧ g < chain.generation + n
      · rw [if_pos hold, if_pos (by omega)]
      · rw [if_neg hold, if_neg (by omega)]

/-! ## The states of a store -/

variable (c) in
/-- The states a store gets into: it is made for an epoch or restored from chains, and keys are
taken from it. -/
inductive Reached : SenderKeyStore → Prop
  | newEpoch {epochSecret groupContextHash : Bytes} {leafIndices : List ℕ} {enhanced : Bool}
      {maxGeneration maxSkippedPerSender : ℕ} {store : SenderKeyStore} :
      newEpochWithPolicy c epochSecret leafIndices groupContextHash enhanced maxGeneration
        maxSkippedPerSender = .ok store → Reached store
  | fromChains (chains : OrdMap ℕ SenderKeyChain) (maxSkippedPerSender : ℕ) :
      Reached (fromChains chains maxSkippedPerSender)
  | getMessageKey {store : SenderKeyStore} (i generation : ℕ) :
      Reached store → Reached (endState ((getMessageKey c i generation).run store))
  | nextOwnMessageKey {store : SenderKeyStore} (i : ℕ) :
      Reached store → Reached (endState ((nextOwnMessageKey c i).run store))

/-- What holds of the cache in every state: cached keys are behind their chain, and both limits
are kept. -/
structure Tidy (store : SenderKeyStore) : Prop where
  behind : ∀ j g, toLex (j, g) ∈ store.skippedKeys.keys →
    ∃ chain, store.getChain j = some chain ∧ g < chain.generation
  perSender : ∀ sender, count store.skippedKeys sender ≤ store.maxSkippedPerSender
  total : store.skippedKeys.size ≤ store.maxSkippedTotal

theorem Tidy.lt_generation (h : store.Tidy) (hchain : store.getChain i = some chain)
    (hmem : toLex (i, g) ∈ store.skippedKeys.keys) : g < chain.generation := by
  obtain ⟨chain', hchain', hlt⟩ := h.behind _ _ hmem
  cases hchain.symm.trans hchain'
  exact hlt

theorem tidy_of_empty (h : store.skippedKeys = ∅) : store.Tidy := by
  refine ⟨fun j g hmem => ?_, fun sender => ?_, ?_⟩
  · rw [h, OrdMap.mem_keys] at hmem
    cases hmem
  · refine (Finset.card_filter_le _ _).trans ?_
    rw [h, card_keys]
    exact Nat.zero_le _
  · rw [h]
    exact Nat.zero_le _

theorem Tidy.setChain (h : store.Tidy) (hchain : store.getChain i = some chain) (n : ℕ) :
    (store.setChain i (chain.walk c n)).Tidy := by
  refine ⟨fun j g hmem => ?_, h.perSender, h.total⟩
  obtain ⟨old, hold, hlt⟩ := h.behind j g hmem
  by_cases hj : j = i
  · subst hj
    cases hchain.symm.trans hold
    exact ⟨_, getChain_setChain_self hchain,
      hlt.trans_le (follows_walk chain n).generation⟩
  · exact ⟨old, (getChain_setChain_of_ne hj).trans hold, hlt⟩

theorem Tidy.erase (h : store.Tidy) (k : ℕ ×ₗ ℕ) :
    ({ store with skippedKeys := store.skippedKeys.erase k } : SenderKeyStore).Tidy := by
  have hsub : (store.skippedKeys.erase k).keys ⊆ store.skippedKeys.keys := by
    rw [keys_erase]
    exact Finset.erase_subset _ _
  exact ⟨fun j g hmem => h.behind j g (hsub hmem),
    fun sender => (count_le_of_subset hsub sender).trans (h.perSender sender),
    (size_erase_le _ _).trans h.total⟩

theorem Tidy.consume (h : store.Tidy) (hchain : store.getChain i = some chain)
    (hle : chain.generation ≤ generation) : (store.consume c i chain generation).Tidy := by
  have hset := h.setChain (c := c) hchain (generation + 1 - chain.generation)
  by_cases heq : generation = chain.generation
  · rw [SenderKeyStore.consume, if_pos heq]
    exact hset
  · have hbehind : ∀ j g, toLex (j, g) ∈ (store.consume c i chain generation).skippedKeys.keys →
        ∃ chain', (store.consume c i chain generation).getChain j = some chain' ∧
          g < chain'.generation := by
      intro j g hmem
      rw [OrdMap.mem_keys, Option.isSome_iff_exists] at hmem
      obtain ⟨key, hkey⟩ := hmem
      rw [getChain_consume]
      rcases get?_of_consume hkey with hkey | ⟨g', hk, -, hlt, -⟩
      · exact hset.behind j g (mem_keys_of_get? hkey)
      · cases hk
        refine ⟨_, getChain_setChain_self hchain, ?_⟩
        rw [generation_walk]
        omega
    rw [SenderKeyStore.consume, if_neg heq] at hbehind ⊢
    exact ⟨hbehind, (enforceCacheLimit_within _).1, (enforceCacheLimit_within _).2⟩

theorem Reached.tidy (h : Reached c store) : store.Tidy := by
  induction h with
  | newEpoch hstore =>
    rw [newEpochWithPolicy, except_bind_eq_ok] at hstore
    obtain ⟨chains, -, hstore⟩ := hstore
    cases hstore
    exact tidy_of_empty rfl
  | fromChains chains limit => exact tidy_of_empty rfl
  | @getMessageKey store i generation _ ih =>
    rcases getMessageKey_run (c := c) store i generation with
      ⟨key, -, hrun⟩ | ⟨-, ⟨chain, hchain, hreach, hrun⟩ | ⟨-, e, hrun⟩⟩
    · rw [hrun]
      exact ih.erase _
    · rw [hrun]
      exact ih.consume hchain hreach.1
    · rw [hrun]
      exact ih
  | @nextOwnMessageKey store i _ ih =>
    rcases nextOwnMessageKey_run (c := c) store i with ⟨chain, hchain, -, hrun⟩ | ⟨-, e, hrun⟩
    · rw [hrun]
      exact ih.setChain hchain 1
    · rw [hrun]
      exact ih

/-! ## Whether fresh keys stay -/

/-- How many keys of senders with a higher leaf are cached. -/
def countAbove (m : OrdMap (ℕ ×ₗ ℕ) Bytes) (sender : ℕ) : ℕ :=
  (m.keys.filter fun k => sender < (ofLex k).1).card

theorem countAbove_le_size (m : OrdMap (ℕ ×ₗ ℕ) Bytes) (sender : ℕ) :
    countAbove m sender ≤ m.size :=
  (Finset.card_filter_le _ _).trans_eq (card_keys m)

variable (c) in
/-- The cache right before the limits are enforced: what was cached, and the keys a walk to a
generation skips. -/
def widened (store : SenderKeyStore) (i : ℕ) (chain : SenderKeyChain) (generation : ℕ) :
    SenderKeyStore :=
  (store.setChain i (chain.walk c (generation + 1 - chain.generation))).cacheSkipped i
    (chain.keysFrom c (generation - chain.generation))

@[simp] theorem maxSkippedPerSender_widened (store : SenderKeyStore) (i : ℕ)
    (chain : SenderKeyChain) (generation : ℕ) :
    (store.widened c i chain generation).maxSkippedPerSender = store.maxSkippedPerSender := rfl

@[simp] theorem maxSkippedTotal_widened (store : SenderKeyStore) (i : ℕ)
    (chain : SenderKeyChain) (generation : ℕ) :
    (store.widened c i chain generation).maxSkippedTotal = store.maxSkippedTotal := rfl

theorem consume_eq_widened (hkept : (store.widened c i chain generation).enforceCacheLimit =
    store.widened c i chain generation) :
    store.consume c i chain generation = store.widened c i chain generation := by
  rw [consume]
  split_ifs with heq
  · rw [widened, heq, Nat.sub_self]
    rfl
  · exact hkept

theorem mem_keys_widened (hle : chain.generation ≤ generation) {j g : ℕ} :
    toLex (j, g) ∈ (store.widened c i chain generation).skippedKeys.keys ↔
      j = i ∧ chain.generation ≤ g ∧ g < generation ∨
        toLex (j, g) ∈ store.skippedKeys.keys := by
  rw [widened, OrdMap.mem_keys, get?_cacheSkipped_keysFrom, OrdMap.mem_keys,
    Nat.add_sub_cancel' hle]
  split_ifs with hnew
  · exact iff_of_true rfl (.inl hnew)
  · exact (or_iff_right hnew).symm

/-- The keys of a sender's generations from one up to another. -/
def keysBetween (i g generation : ℕ) : Finset (ℕ ×ₗ ℕ) :=
  (Finset.Ico g generation).image fun g' => toLex (i, g')

theorem mem_keysBetween {j g g' : ℕ} :
    toLex (j, g') ∈ keysBetween i g generation ↔ j = i ∧ g ≤ g' ∧ g' < generation := by
  rw [keysBetween, Finset.mem_image]
  constructor
  · rintro ⟨g'', hg'', heq⟩
    obtain ⟨rfl, rfl⟩ := Prod.mk.inj (toLex.injective heq)
    exact ⟨rfl, Finset.mem_Ico.mp hg''⟩
  · rintro ⟨rfl, hg'⟩
    exact ⟨g', Finset.mem_Ico.mpr hg', rfl⟩

theorem card_keysBetween (i g generation : ℕ) :
    (keysBetween i g generation).card = generation - g := by
  have hinj : Function.Injective fun g' : ℕ => toLex (i, g') := by
    intro a b hab
    exact (Prod.mk.inj (toLex.injective hab)).2
  rw [keysBetween, Finset.card_image_of_injective _ hinj, Nat.card_Ico]

/-- The keys a walk skips are the last ones of their sender. -/
theorem rank_widened (h : store.Tidy) (hchain : store.getChain i = some chain)
    (hge : chain.generation ≤ g) (hlt : g < generation) :
    rank (store.widened c i chain generation).skippedKeys (toLex (i, g)) = generation - g := by
  rw [rank, ← card_keysBetween i]
  congr 1
  ext k
  obtain ⟨⟨j, g'⟩, rfl⟩ := toLex.surjective k
  rw [Finset.mem_filter, mem_keys_widened (hge.trans hlt.le), mem_keysBetween,
    Prod.Lex.toLex_le_toLex]
  constructor
  · rintro ⟨hmem, hj, hle⟩
    obtain rfl : j = i := hj
    refine ⟨rfl, by omega, ?_⟩
    rcases hmem with ⟨-, -, hg'⟩ | hold
    · exact hg'
    · exact ((h.lt_generation hchain hold).trans_le hge).trans hlt
  · rintro ⟨rfl, hg, hg'⟩
    exact ⟨.inl ⟨rfl, by omega, hg'⟩, rfl, .inr ⟨rfl, hg⟩⟩

/-- The first eviction leaves the keys of the other senders alone. -/
theorem rank_widened_of_ne (h : store.Tidy) (hle : chain.generation ≤ generation) {j g : ℕ}
    (hj : j ≠ i) :
    rank (store.widened c i chain generation).skippedKeys (toLex (j, g)) ≤
      store.maxSkippedPerSender := by
  refine le_trans (Finset.card_le_card fun k hk => ?_) (h.perSender j)
  obtain ⟨⟨j', g'⟩, rfl⟩ := toLex.surjective k
  obtain ⟨hmem, hsender, -⟩ := Finset.mem_filter.mp hk
  obtain rfl : j' = j := hsender
  rcases (mem_keys_widened hle).mp hmem with ⟨hji, -⟩ | hold
  · exact absurd hji hj
  · exact Finset.mem_filter.mpr ⟨hold, rfl⟩

section

variable (h : store.Tidy) (hchain : store.getChain i = some chain)
include h hchain

section

variable (hlimit : generation - chain.generation ≤ store.maxSkippedPerSender)
  (hge : chain.generation ≤ g) (hlt : g < generation)
include hlimit hge hlt

/-- What a fresh key has to share the cache with: the fresh keys from it on, and all keys of senders
with a higher leaf. -/
theorem card_from_fresh :
    ((trimmed (store.widened c i chain generation)).keys.filter
      fun k => toLex (i, g) ≤ k).card = generation - g + countAbove store.skippedKeys i := by
  have hle : chain.generation ≤ generation := hge.trans hlt.le
  have heq : (trimmed (store.widened c i chain generation)).keys.filter
      (fun k => toLex (i, g) ≤ k) =
        keysBetween i g generation ∪ store.skippedKeys.keys.filter fun k => i < (ofLex k).1 := by
    ext k
    obtain ⟨⟨j, g'⟩, rfl⟩ := toLex.surjective k
    rw [Finset.mem_filter, Finset.mem_union, Finset.mem_filter, mem_keysBetween, mem_keys_trimmed,
      mem_keys_widened hle, Prod.Lex.toLex_le_toLex]
    constructor
    · rintro ⟨⟨hmem, -⟩, hlt' | ⟨rfl, hg⟩⟩
      · rcases hmem with ⟨rfl, -⟩ | hold
        · exact absurd hlt' (lt_irrefl _)
        · exact .inr ⟨hold, hlt'⟩
      · rcases hmem with ⟨-, -, hg'⟩ | hold
        · exact .inl ⟨rfl, hg, hg'⟩
        · have := h.lt_generation hchain hold
          omega
    · rintro (⟨rfl, hg, hg'⟩ | ⟨hold, hij⟩)
      · have hrank := rank_widened (c := c) h hchain (hge.trans hg) hg'
        refine ⟨⟨.inl ⟨rfl, by omega, hg'⟩, hrank.trans_le ?_⟩, .inr ⟨rfl, hg⟩⟩
        exact le_trans (by omega) hlimit
      · exact ⟨⟨.inr hold, rank_widened_of_ne h hle (ne_of_gt hij)⟩, .inl hij⟩
  have hdisjoint : Disjoint (keysBetween i g generation)
      (store.skippedKeys.keys.filter fun k => i < (ofLex k).1) := by
    rw [Finset.disjoint_left]
    intro k hk hk'
    obtain ⟨⟨j, g'⟩, rfl⟩ := toLex.surjective k
    obtain ⟨rfl, -⟩ := mem_keysBetween.mp hk
    exact lt_irrefl _ (Finset.mem_filter.mp hk').2
  rw [heq, Finset.card_union_of_disjoint hdisjoint, card_keysBetween, countAbove]

/-- A fresh key stays as long as the keys it has to share the cache with fit into it. -/
theorem mem_keys_consume_fresh :
    toLex (i, g) ∈ (store.consume c i chain generation).skippedKeys.keys ↔
      generation - g + countAbove store.skippedKeys i ≤ store.maxSkippedTotal := by
  have hconsume : store.consume c i chain generation =
      (store.widened c i chain generation).enforceCacheLimit := by
    rw [consume, if_neg (by omega), widened]
  have hkept : toLex (i, g) ∈ (store.widened c i chain generation).skippedKeys.keys ∧
      rank (store.widened c i chain generation).skippedKeys (toLex (i, g)) ≤
        (store.widened c i chain generation).maxSkippedPerSender := by
    refine ⟨(mem_keys_widened (hge.trans hlt.le)).mpr (.inl ⟨rfl, hge, hlt⟩), ?_⟩
    rw [rank_widened h hchain hge hlt]
    exact le_trans (by omega) hlimit
  rw [hconsume, mem_keys_enforceCacheLimit, card_from_fresh h hchain hlimit hge hlt,
    and_iff_right hkept]
  rfl

end

/-- A cached key of a fresh generation is the chain's. -/
theorem get?_consume_fresh
    (hge : chain.generation ≤ g) (hmem : toLex (i, g) ∈
      (store.consume c i chain generation).skippedKeys.keys) :
    (store.consume c i chain generation).skippedKeys.get? (toLex (i, g)) =
      some (chain.keyAt c g) := by
  rw [OrdMap.mem_keys, Option.isSome_iff_exists] at hmem
  obtain ⟨key, hkey⟩ := hmem
  rcases get?_of_consume hkey with hold | ⟨g', hk, -, -, rfl⟩
  · exact absurd (h.lt_generation hchain (mem_keys_of_get? hold)) hge.not_gt
  · cases hk
    exact hkey

/-- What a request for a key skipped just before gives. -/
theorem fetch_fresh
    (hlimit : generation - chain.generation ≤ store.maxSkippedPerSender)
    (hge : chain.generation ≤ g) (hlt : g < generation) :
    (outcome ((getMessageKey c i g).run (store.consume c i chain generation))).toOption =
      if generation - g + countAbove store.skippedKeys i ≤ store.maxSkippedTotal
      then some (chain.keyAt c g) else none := by
  have hstays := mem_keys_consume_fresh (c := c) h hchain hlimit hge hlt
  rcases getMessageKey_run (c := c) (store.consume c i chain generation) i g with
    ⟨key, hcached, hrun⟩ | ⟨hnone, ⟨chain', hchain', hreach, -⟩ | ⟨-, e, hrun⟩⟩
  · have hmem := mem_keys_of_get? hcached
    cases hcached.symm.trans (get?_consume_fresh h hchain hge hmem)
    rw [hrun, if_pos (hstays.mp hmem)]
    rfl
  · -- the chain is past the generation
    rw [getChain_consume, getChain_setChain_self hchain] at hchain'
    cases hchain'
    have hgeneration := hreach.1
    rw [generation_walk] at hgeneration
    omega
  · rw [hrun, if_neg (hstays.not.mp (OrdMap.get?_eq_none_iff.mp hnone))]
    rfl

end

/-- The keys that a call has just skipped can all be fetched after it exactly if they fit into the
cache together with the keys of all senders with a higher leaf: those are never evicted in favour of
the fresh ones. -/
theorem fresh_keys_kept_iff (hstore : Reached c store) (hchain : store.getChain i = some chain)
    {key : Bytes} (hrun : (getMessageKey c i generation).run store = .ok key store')
    (hlimit : generation - chain.generation ≤ store.maxSkippedPerSender) :
    (∀ g, chain.generation ≤ g → g < generation →
      ∃ store'', (getMessageKey c i g).run store' = .ok (chain.keyAt c g) store'') ↔
    generation - chain.generation + countAbove store.skippedKeys i ≤ store.maxSkippedTotal := by
  have htidy := hstore.tidy
  have habove := (countAbove_le_size store.skippedKeys i).trans htidy.total
  rcases getMessageKey_run (c := c) store i generation with
    ⟨_, hcached, hrun'⟩ | ⟨-, ⟨chain', hchain', hreach, hrun'⟩ | ⟨-, e, hrun'⟩⟩
  · -- a cached key is behind the chain, so nothing is skipped
    have hbehind := htidy.lt_generation hchain (mem_keys_of_get? hcached)
    exact iff_of_true (fun g hge hlt ↦ by omega) (by omega)
  · cases hchain.symm.trans hchain'
    cases hrun.symm.trans hrun'
    have hfetch : ∀ g, chain.generation ≤ g → g < generation →
        ((∃ store'', (getMessageKey c i g).run (store.consume c i chain generation) =
            .ok (chain.keyAt c g) store'') ↔
          generation - g + countAbove store.skippedKeys i ≤ store.maxSkippedTotal) := by
      intro g hge hlt
      rw [← toOption_outcome_eq_some, fetch_fresh htidy hchain hlimit hge hlt]
      exact Option.ite_none_right_eq_some.trans (and_iff_left rfl)
    constructor
    · intro hall
      rcases hreach.1.eq_or_lt with heq | hlt
      · omega
      · -- the first skipped key is the first one to go
        exact (hfetch _ le_rfl hlt).mp (hall _ le_rfl hlt)
    · intro hfits g hge hlt
      exact (hfetch g hge hlt).mpr (by omega)
  · cases hrun.symm.trans hrun'

/-- A chain that has not given a key yet. -/
def sampleChain (leafIndex : ℕ) : SenderKeyChain :=
  ⟨leafIndex, List.replicate 32 0, 0, false, 100000, 1000, rfl⟩

/-- Two senders, under the limit of 1000 keys per sender of the standard policy. -/
def sampleStore : SenderKeyStore :=
  fromChains ((∅ : OrdMap ℕ SenderKeyChain).insertAll [(0, sampleChain 0), (1, sampleChain 1)]) 1000

/-- The store after 256 keys of the second sender were skipped: the cache is full. -/
def sampleCrowded : SenderKeyStore :=
  sampleStore.consume .transparent 1 (sampleChain 1) 256

theorem getMessageKey_of_reaches (hnone : store.skippedKeys.get? (toLex (i, generation)) = none)
    (hchain : store.getChain i = some chain) (hreach : chain.Reaches generation) :
    (getMessageKey c i generation).run store =
      .ok (chain.keyAt c generation) (store.consume c i chain generation) := by
  rcases getMessageKey_run (c := c) store i generation with
    ⟨key, hcached, -⟩ | ⟨-, ⟨chain', hchain', -, hrun⟩ | ⟨hno, -⟩⟩
  · cases hnone.symm.trans hcached
  · cases hchain.symm.trans hchain'
    exact hrun
  · exact absurd hreach (hno _ hchain)

theorem fresh_keys_kept_iff_sample : ∃ key store',
    (getMessageKey .transparent 0 1).run sampleStore = .ok key store' ∧
      ((∀ g, (sampleChain 0).generation ≤ g → g < 1 → ∃ store'',
        (getMessageKey .transparent 0 g).run store' =
          .ok ((sampleChain 0).keyAt .transparent g) store'') ↔
      1 - (sampleChain 0).generation + countAbove sampleStore.skippedKeys 0 ≤
        sampleStore.maxSkippedTotal) := by
  have hok : (outcome ((getMessageKey .transparent 0 1).run sampleStore)).toOption.isSome = true := by
    decide +kernel
  cases hrun : (getMessageKey .transparent 0 1).run sampleStore with
  | error e s =>
    rw [hrun] at hok
    cases hok
  | ok key s =>
    exact ⟨key, s, rfl, fresh_keys_kept_iff (.fromChains _ _) rfl hrun (by decide)⟩

theorem sampleCrowded_reached : Reached .transparent sampleCrowded := by
  have hrun : (getMessageKey .transparent 1 256).run sampleStore = .ok _ sampleCrowded :=
    getMessageKey_of_reaches rfl rfl (by decide)
  have hreached := Reached.getMessageKey (c := .transparent) 1 256
    (.fromChains ((∅ : OrdMap ℕ SenderKeyChain).insertAll
      [(0, sampleChain 0), (1, sampleChain 1)]) 1000)
  rw [← sampleStore, hrun] at hreached
  exact hreached

/-- All 256 keys of the second sender are cached. -/
theorem countAbove_sampleCrowded : 256 ≤ countAbove sampleCrowded.skippedKeys 0 := by
  refine (card_keysBetween 1 0 256).ge.trans (Finset.card_le_card fun k hk => ?_)
  obtain ⟨⟨j, g⟩, rfl⟩ := toLex.surjective k
  obtain ⟨rfl, hge, hlt⟩ := mem_keysBetween.mp hk
  refine Finset.mem_filter.mpr ⟨?_, Nat.one_pos⟩
  refine (mem_keys_consume_fresh (tidy_of_empty rfl) rfl (by decide) hge hlt).mpr ?_
  have hnone : countAbove sampleStore.skippedKeys 1 = 0 := rfl
  have htotal : sampleStore.maxSkippedTotal = 256 := rfl
  omega

/-- When the cache is full of keys of the second sender, the one key of the first sender that a call
skips is evicted by that call. -/
theorem fresh_key_evicted : Reached .transparent sampleCrowded ∧
    sampleCrowded.getChain 0 = some (sampleChain 0) ∧ (sampleChain 0).generation = 0 ∧
      1 ≤ sampleCrowded.maxSkippedPerSender ∧ 1 ≤ sampleCrowded.maxSkippedTotal ∧
      ∃ key store', (getMessageKey .transparent 0 1).run sampleCrowded = .ok key store' ∧
        (outcome ((getMessageKey .transparent 0 0).run store')).toOption = none := by
  have hreached := sampleCrowded_reached
  have hchain : sampleCrowded.getChain 0 = some (sampleChain 0) := by
    rw [sampleCrowded, getChain_consume, getChain_setChain_of_ne (by decide)]
    rfl
  have hlimit : sampleCrowded.maxSkippedPerSender = 1000 := rfl
  have htotal : sampleCrowded.maxSkippedTotal = 256 := rfl
  have hnone : sampleCrowded.skippedKeys.get? (toLex (0, 1)) = none := by
    refine OrdMap.get?_eq_none_iff.mpr fun hmem ↦ ?_
    -- a cached key would be behind the chain
    exact absurd (hreached.tidy.lt_generation hchain hmem) (by decide)
  refine ⟨hreached, hchain, rfl, by omega, by omega, _, _,
    getMessageKey_of_reaches hnone hchain (by decide), ?_⟩
  have hfull := countAbove_sampleCrowded
  have hfetch := fetch_fresh (c := .transparent) hreached.tidy hchain
    (by rw [hlimit]; decide) (Nat.zero_le 0) Nat.one_pos
  rw [hfetch, if_neg (by omega)]

/-! ## The keys of the sender's own chain -/

variable (c) in
/-- The key that the sender's own store gives for a generation, if it gives one: what
`next_own_message_key` returns when it is called once more after that many calls. -/
def ownKey (store : SenderKeyStore) (i generation : ℕ) : Option Bytes :=
  (outcome ((nextOwnMessageKey c i).run
    ((fun s => endState ((nextOwnMessageKey c i).run s))^[generation] store))).toOption.map Prod.snd

/-- A store that no key was taken from. -/
structure Fresh (store : SenderKeyStore) : Prop where
  generation : ∀ {i chain}, store.getChain i = some chain → chain.generation = 0
  maxSkipped : ∀ {i chain}, store.getChain i = some chain →
    chain.maxSkippedPerSender = store.maxSkippedPerSender
  skippedKeys : store.skippedKeys = ∅
  maxSkippedTotal : store.maxSkippedTotal = maxSkippedSenderKeys

theorem fresh_newEpochWithPolicy {epochSecret groupContextHash : Bytes} {leafIndices : List ℕ}
    {enhanced : Bool} {maxGeneration maxSkippedPerSender : ℕ}
    (h : newEpochWithPolicy c epochSecret leafIndices groupContextHash enhanced maxGeneration
      maxSkippedPerSender = .ok store) : store.Fresh := by
  rw [newEpochWithPolicy, except_bind_eq_ok] at h
  obtain ⟨chains, hchains, hstore⟩ := h
  cases hstore
  obtain ⟨-, hall⟩ := mem_newChains hchains
  exact ⟨fun hget => (hall _ (mem_of_getChain hget)).2.2.2.2,
    fun hget => (hall _ (mem_of_getChain hget)).2.2.2.1, rfl, rfl⟩

/-- The sender's chain after some calls: it has moved that far, or it is exhausted. -/
theorem getChain_iterate_nextOwnMessageKey (hchain : store.getChain i = some chain) (n : ℕ) :
    ∃ k ≤ n, ((fun s => endState ((nextOwnMessageKey c i).run s))^[n] store).getChain i =
      some (chain.walk c k) ∧ (k = n ∨ ¬ chain.generation + k < chain.maxGeneration) := by
  induction n with
  | zero => exact ⟨0, le_rfl, hchain, .inl rfl⟩
  | succ n ih =>
    obtain ⟨k, hk, hget, hor⟩ := ih
    have hgen := generation_walk (c := c) chain k
    have hmax := (follows_walk (c := c) chain k).maxGeneration
    rw [Function.iterate_succ_apply']
    generalize (fun s => endState ((nextOwnMessageKey c i).run s))^[n] store = now at hget ⊢
    rcases nextOwnMessageKey_run (c := c) now i with ⟨chain', hchain', hlt, hrun⟩ | ⟨hout, e, hrun⟩
    · cases hget.symm.trans hchain'
      rw [hrun]
      refine ⟨k + 1, by omega, ?_, ?_⟩
      · rw [endState_ok, getChain_setChain_self hget, walk_add]
      · rcases hor with rfl | hexhausted
        · exact .inl rfl
        · omega
    · rw [hrun]
      have := hout _ hget
      exact ⟨k, by omega, hget, .inr (by omega)⟩

/-- The sender's own keys are those of its chain. -/
theorem Fresh.ownKey_eq (h : store.Fresh) (hchain : store.getChain i = some chain) (g : ℕ) :
    ownKey c store i g = if g < chain.maxGeneration then some (chain.keyAt c g) else none := by
  obtain ⟨k, hk, hget, hor⟩ := getChain_iterate_nextOwnMessageKey (c := c) hchain g
  have hzero := h.generation hchain
  have hgen := generation_walk (c := c) chain k
  have hmax := (follows_walk (c := c) chain k).maxGeneration
  rw [ownKey]
  generalize (fun s => endState ((nextOwnMessageKey c i).run s))^[g] store = now at hget ⊢
  rcases nextOwnMessageKey_run (c := c) now i with ⟨chain', hchain', hlt, hrun⟩ | ⟨hout, e, hrun⟩
  · cases hget.symm.trans hchain'
    obtain rfl : k = g := by omega
    rw [hrun, if_pos (by omega), keyAt, hzero]
    rfl
  · have := hout _ hget
    rw [hrun, if_neg (by omega)]
    rfl

theorem ownKey_of_none (h : store.getChain i = none) (g : ℕ) : ownKey c store i g = none := by
  have hrun : ∀ s : SenderKeyStore, s.getChain i = none →
      ∃ e, (nextOwnMessageKey c i).run s = .error e s := fun s hs => ⟨_, onChain_of_none hs⟩
  have hnone : ((fun s => endState ((nextOwnMessageKey c i).run s))^[g] store).getChain i = none := by
    induction g with
    | zero => exact h
    | succ g ih =>
      obtain ⟨e, he⟩ := hrun _ ih
      rw [Function.iterate_succ_apply', he]
      exact ih
  obtain ⟨e, he⟩ := hrun _ hnone
  rw [ownKey, he]
  rfl

/-- A key that the sender's own store gives is the chain's. -/
theorem Fresh.ownKey_eq_some (h : store.Fresh) {key : Bytes} :
    ownKey c store i g = some key ↔ ∃ chain, store.getChain i = some chain ∧
      g < chain.maxGeneration ∧ key = chain.keyAt c g := by
  cases hchain : store.getChain i with
  | none => simp [ownKey_of_none hchain]
  | some chain =>
    rw [h.ownKey_eq hchain]
    simp [eq_comm]

/-- The sender's own store gives the keys of all generations below one that it gives. -/
theorem Fresh.isSome_ownKey (h : store.Fresh) {g g' : ℕ} (hown : (ownKey c store i g).isSome)
    (hle : g' ≤ g) : (ownKey c store i g').isSome := by
  obtain ⟨key, hkey⟩ := Option.isSome_iff_exists.mp hown
  obtain ⟨chain, hchain, hlt, -⟩ := h.ownKey_eq_some.mp hkey
  exact Option.isSome_of_eq_some (h.ownKey_eq_some.mpr ⟨chain, hchain, hle.trans_lt hlt, rfl⟩)

/-! ## Requests -/

/-- The generations of a sender below the last one asked for, from the requests so far. -/
def frontier (asked : Finset (ℕ × ℕ)) (i : ℕ) : ℕ :=
  (asked.filter fun r => r.1 = i).sup fun r => r.2 + 1

/-- The skipped keys: of generations below one that was asked for, and not asked for so far. -/
def outstanding (asked : Finset (ℕ × ℕ)) : Finset (ℕ × ℕ) :=
  (asked.biUnion fun r => (Finset.range r.2).image fun g => (r.1, g)) \ asked

theorem lt_frontier :
    g < frontier asked i ↔ ∃ g', (i, g') ∈ asked ∧ g ≤ g' := by
  rw [frontier, Finset.lt_sup_iff]
  constructor
  · rintro ⟨⟨j, g'⟩, hmem, hlt⟩
    obtain ⟨hasked, hj⟩ := Finset.mem_filter.mp hmem
    obtain rfl : j = i := hj
    exact ⟨g', hasked, Nat.le_of_lt_succ hlt⟩
  · rintro ⟨g', hasked, hle⟩
    exact ⟨(i, g'), Finset.mem_filter.mpr ⟨hasked, rfl⟩, Nat.lt_succ_of_le hle⟩

theorem frontier_insert_self (asked : Finset (ℕ × ℕ)) (i g : ℕ) :
    frontier (insert (i, g) asked) i = max (g + 1) (frontier asked i) := by
  rw [frontier, Finset.filter_insert, if_pos rfl, Finset.sup_insert]
  rfl

theorem frontier_insert_of_ne (asked : Finset (ℕ × ℕ)) {i j : ℕ} (h : j ≠ i) (g : ℕ) :
    frontier (insert (i, g) asked) j = frontier asked j := by
  rw [frontier, Finset.filter_insert, if_neg fun heq => h heq.symm, frontier]

theorem mem_outstanding :
    (i, g) ∈ outstanding asked ↔ g < frontier asked i ∧ (i, g) ∉ asked := by
  rw [outstanding, Finset.mem_sdiff, lt_frontier, Finset.mem_biUnion]
  refine and_congr_left fun hnot => ?_
  constructor
  · rintro ⟨⟨j, g'⟩, hasked, hmem⟩
    obtain ⟨_, hlt, heq⟩ := Finset.mem_image.mp hmem
    cases heq
    exact ⟨g', hasked, (Finset.mem_range.mp hlt).le⟩
  · rintro ⟨g', hasked, hle⟩
    have hne : g ≠ g' := by
      rintro rfl
      exact hnot hasked
    exact ⟨(i, g'), hasked, Finset.mem_image.mpr
      ⟨g, Finset.mem_range.mpr (hle.lt_of_ne hne), rfl⟩⟩

/-- Asking for a generation ahead adds those on the way to the skipped ones. -/
theorem mem_outstanding_insert_ahead (h : frontier asked i ≤ g)
    {j g' : ℕ} : (j, g') ∈ outstanding (insert (i, g) asked) ↔
      j = i ∧ frontier asked i ≤ g' ∧ g' < g ∨ (j, g') ∈ outstanding asked := by
  rw [mem_outstanding, mem_outstanding, Finset.mem_insert, not_or]
  by_cases hj : j = i
  · subst hj
    have hbehind : (j, g') ∈ asked → g' < frontier asked j := fun hasked =>
      lt_frontier.mpr ⟨g', hasked, le_rfl⟩
    rw [frontier_insert_self, Prod.mk.injEq, max_eq_left (by omega)]
    constructor
    · rintro ⟨hlt, hne, hnot⟩
      by_cases hnew : frontier asked j ≤ g'
      · exact .inl ⟨rfl, hnew, by omega⟩
      · exact .inr ⟨not_le.mp hnew, hnot⟩
    · rintro (⟨-, hge, hlt⟩ | ⟨hlt, hnot⟩)
      · exact ⟨by omega, by omega, fun hasked => (hbehind hasked).not_ge hge⟩
      · exact ⟨by omega, by omega, hnot⟩
  · rw [frontier_insert_of_ne asked hj, Prod.mk.injEq]
    simp only [hj, false_and, not_false_eq_true, true_and, false_or]

/-- Asking for a skipped generation takes it from the skipped ones. -/
theorem mem_outstanding_insert_behind (h : g < frontier asked i)
    {j g' : ℕ} : (j, g') ∈ outstanding (insert (i, g) asked) ↔
      (j, g') ≠ (i, g) ∧ (j, g') ∈ outstanding asked := by
  have hfrontier : frontier (insert (i, g) asked) j = frontier asked j := by
    by_cases hj : j = i
    · subst hj
      rw [frontier_insert_self, max_eq_right h]
    · exact frontier_insert_of_ne asked hj g
  rw [mem_outstanding, mem_outstanding, hfrontier, Finset.mem_insert, not_or]
  exact and_left_comm

/-- The skipped keys are within the limits of a store. -/
def Fits (store : SenderKeyStore) (asked : Finset (ℕ × ℕ)) : Prop :=
  (outstanding asked).card ≤ maxSkippedSenderKeys ∧
    ∀ i, ((outstanding asked).filter fun r => r.1 = i).card ≤ store.maxSkippedPerSender

/-- A cache that holds the skipped keys has their number. -/
theorem card_of_mem_keys {m : OrdMap (ℕ ×ₗ ℕ) Bytes} {skipped : Finset (ℕ × ℕ)}
    (h : ∀ j g, toLex (j, g) ∈ m.keys ↔ (j, g) ∈ skipped) :
    m.size = skipped.card ∧ ∀ i, count m i = (skipped.filter fun r => r.1 = i).card := by
  have hkeys : m.keys = skipped.map toLex.toEmbedding := by
    ext k
    obtain ⟨⟨j, g⟩, rfl⟩ := toLex.surjective k
    rw [h, Finset.mem_map_equiv]
    rfl
  constructor
  · rw [← card_keys, hkeys, Finset.card_map]
  · intro i
    rw [count, hkeys, Finset.filter_map, Finset.card_map]
    rfl

variable (c) in
/-- A store against the store it was and the requests that it could serve: each chain is past the
generations that were asked for, and the skipped keys are cached. -/
structure Serves (origin : SenderKeyStore) (asked : Finset (ℕ × ℕ)) (store : SenderKeyStore) :
    Prop where
  own : ∀ r ∈ asked, (ownKey c origin r.1 r.2).isSome
  chain : ∀ i, store.getChain i = (origin.getChain i).map fun chain =>
    chain.walk c (frontier asked i)
  cached : ∀ i g, store.skippedKeys.get? (toLex (i, g)) =
    if (i, g) ∈ outstanding asked then ownKey c origin i g else none
  maxSkippedPerSender : store.maxSkippedPerSender = origin.maxSkippedPerSender
  maxSkippedTotal : store.maxSkippedTotal = maxSkippedSenderKeys

variable {origin : SenderKeyStore} {g : ℕ} {key : Bytes}

theorem Fresh.serves (h : origin.Fresh) : Serves c origin ∅ origin := by
  refine ⟨fun r hr => absurd hr (Finset.notMem_empty r), fun i => ?_, fun i g => ?_, rfl,
    h.maxSkippedTotal⟩
  · exact Option.map_id'.symm
  · rw [h.skippedKeys]
    rfl

/-- What the sender's own store does not give, and what was asked for before, is refused. -/
theorem Serves.refuses (h : Serves c origin asked store) (ho : origin.Fresh)
    (hno : ownKey c origin i g = none ∨ (i, g) ∈ asked) :
    ∃ e, (getMessageKey c i g).run store = .error e store := by
  rcases getMessageKey_run (c := c) store i g with
    ⟨key, hcached, -⟩ | ⟨-, ⟨chain, hchain, hreach, -⟩ | ⟨-, hrun⟩⟩
  · rw [h.cached] at hcached
    split_ifs at hcached with hout
    rcases hno with hno | hasked
    · cases hno.symm.trans hcached
    · exact absurd hasked (mem_outstanding.mp hout).2
  · rw [h.chain, Option.map_eq_some_iff] at hchain
    obtain ⟨base, hbase, rfl⟩ := hchain
    have hgen := generation_walk (c := c) base (frontier asked i)
    have hmax := (follows_walk (c := c) base (frontier asked i)).maxGeneration
    have hle := hreach.1
    have hlt := hreach.2.1
    rcases hno with hno | hasked
    · rw [ho.ownKey_eq hbase, if_pos (hmax ▸ hlt)] at hno
      cases hno
    · have hbehind : g < frontier asked i := lt_frontier.mpr ⟨g, hasked, le_rfl⟩
      omega
  · exact hrun

theorem Serves.own_insert (h : Serves c origin asked store)
    (hown : ownKey c origin i g = some key) :
    ∀ r ∈ insert (i, g) asked, (ownKey c origin r.1 r.2).isSome := by
  intro r hr
  rcases Finset.mem_insert.mp hr with rfl | hr
  · exact Option.isSome_of_eq_some hown
  · exact h.own r hr

/-- A skipped key is taken from the cache. -/
theorem Serves.fetch (h : Serves c origin asked store) (hown : ownKey c origin i g = some key)
    (hnot : (i, g) ∉ asked) (hlt : g < frontier asked i) :
    ∃ store', (getMessageKey c i g).run store = .ok key store' ∧
      Serves c origin (insert (i, g) asked) store' := by
  have hcached : store.skippedKeys.get? (toLex (i, g)) = some key := by
    rw [h.cached, if_pos (mem_outstanding.mpr ⟨hlt, hnot⟩), hown]
  rcases getMessageKey_run (c := c) store i g with ⟨key', hkey', hrun⟩ | ⟨hnone, -⟩
  · cases hcached.symm.trans hkey'
    refine ⟨_, hrun, h.own_insert hown, fun j => ?_, fun j g' => ?_, h.maxSkippedPerSender,
      h.maxSkippedTotal⟩
    · by_cases hj : j = i
      · subst hj
        rw [frontier_insert_self, max_eq_right hlt]
        exact h.chain j
      · rw [frontier_insert_of_ne asked hj]
        exact h.chain j
    · rw [OrdMap.get?_erase, h.cached]
      simp only [mem_outstanding_insert_behind hlt, EmbeddingLike.apply_eq_iff_eq]
      by_cases heq : (j, g') = (i, g)
      · rw [if_pos heq, if_neg fun hboth => hboth.1 heq]
      · simp only [heq, if_false, ne_eq, not_false_eq_true, true_and]
  · cases hnone.symm.trans hcached

/-- The generations up to one that is asked for are within reach if the skipped keys fit. -/
theorem Fits.reach (h : Fits origin (insert (i, g) asked)) (hle : frontier asked i ≤ g) :
    g - frontier asked i ≤ origin.maxSkippedPerSender := by
  refine le_trans ?_ (h.2 i)
  rw [← Nat.card_Ico, ← Finset.card_map ⟨fun g' : ℕ => (i, g'), Prod.mk_right_injective i⟩]
  refine Finset.card_le_card fun r hr => ?_
  obtain ⟨g', hg', rfl⟩ := Finset.mem_map.mp hr
  refine Finset.mem_filter.mpr ⟨?_, rfl⟩
  exact (mem_outstanding_insert_ahead hle).mpr (.inl ⟨rfl, Finset.mem_Ico.mp hg'⟩)

section Ahead

variable {base : SenderKeyChain}

section

variable (h : Serves c origin asked store) (ho : origin.Fresh)
  (hbase : origin.getChain i = some base) (hmax : g < base.maxGeneration)
  (hle : frontier asked i ≤ g)
include h ho hbase hmax hle

/-- The cache that holds the keys on the way to a generation ahead holds what is skipped then. -/
theorem Serves.get?_widened (j g' : ℕ) :
    (store.widened c i (base.walk c (frontier asked i)) g).skippedKeys.get? (toLex (j, g')) =
      if (j, g') ∈ outstanding (insert (i, g) asked) then ownKey c origin j g' else none := by
  have hzero := ho.generation hbase
  rw [widened, get?_cacheSkipped_keysFrom, generation_walk, hzero, Nat.zero_add,
    Nat.add_sub_cancel' hle]
  by_cases hnew : j = i ∧ frontier asked i ≤ g' ∧ g' < g
  · obtain ⟨rfl, hge, hlt⟩ := hnew
    rw [if_pos ⟨rfl, hge, hlt⟩,
      if_pos ((mem_outstanding_insert_ahead hle).mpr (.inl ⟨rfl, hge, hlt⟩)),
      ho.ownKey_eq hbase, if_pos (hlt.trans hmax), keyAt_walk (by omega)]
  · rw [if_neg hnew]
    simp only [mem_outstanding_insert_ahead hle, hnew, false_or]
    exact h.cached j g'

/-- If it fits, nothing is evicted from it. -/
theorem Serves.enforceCacheLimit_widened (hfits : Fits origin (insert (i, g) asked)) :
    (store.widened c i (base.walk c (frontier asked i)) g).enforceCacheLimit =
      store.widened c i (base.walk c (frontier asked i)) g := by
  have hown := h.own_insert (ho.ownKey_eq_some.mpr ⟨base, hbase, hmax, rfl⟩)
  have hmem : ∀ j g', toLex (j, g') ∈
      (store.widened c i (base.walk c (frontier asked i)) g).skippedKeys.keys ↔
        (j, g') ∈ outstanding (insert (i, g) asked) := by
    intro j g'
    rw [OrdMap.mem_keys, h.get?_widened ho hbase hmax hle]
    split_ifs with hout
    · obtain ⟨g'', hasked, hle'⟩ := lt_frontier.mp (mem_outstanding.mp hout).1
      have hsome := hown (j, g'') hasked
      exact iff_of_true (ho.isSome_ownKey hsome hle') hout
    · exact iff_of_false (by simp) hout
  obtain ⟨hsize, hcount⟩ := card_of_mem_keys hmem
  refine enforceCacheLimit_of_fits (fun sender => ?_) ?_
  · rw [hcount, maxSkippedPerSender_widened, h.maxSkippedPerSender]
    exact hfits.2 sender
  · rw [hsize, maxSkippedTotal_widened, h.maxSkippedTotal]
    exact hfits.1

end

/-- A generation ahead is taken from the chain, and the ones on the way are cached. -/
theorem Serves.advance (h : Serves c origin asked store) (ho : origin.Fresh)
    (hown : ownKey c origin i g = some key) (hle : frontier asked i ≤ g)
    (hfits : Fits origin (insert (i, g) asked)) :
    ∃ store', (getMessageKey c i g).run store = .ok key store' ∧
      Serves c origin (insert (i, g) asked) store' := by
  obtain ⟨base, hbase, hmax, rfl⟩ := ho.ownKey_eq_some.mp hown
  have hchain : store.getChain i = some (base.walk c (frontier asked i)) := by
    rw [h.chain, hbase]
    rfl
  have hgen : (base.walk c (frontier asked i)).generation = frontier asked i := by
    rw [generation_walk, ho.generation hbase, Nat.zero_add]
  have hfollows := follows_walk (c := c) base (frontier asked i)
  have hreach : (base.walk c (frontier asked i)).Reaches g := by
    refine ⟨hgen.trans_le hle, hfollows.maxGeneration.symm ▸ hmax, ?_⟩
    rw [hgen, hfollows.maxSkippedPerSender, ho.maxSkipped hbase]
    exact hfits.reach hle
  have hkey : (base.walk c (frontier asked i)).keyAt c g = base.keyAt c g :=
    keyAt_walk (by rw [ho.generation hbase, Nat.zero_add]; exact hle)
  have hconsume := consume_eq_widened (h.enforceCacheLimit_widened ho hbase hmax hle hfits)
  have hnone : store.skippedKeys.get? (toLex (i, g)) = none := by
    rw [h.cached, if_neg fun hout => hle.not_gt (mem_outstanding.mp hout).1]
  have hrun := getMessageKey_of_reaches (c := c) hnone hchain hreach
  rw [hkey, hconsume] at hrun
  refine ⟨_, hrun, h.own_insert hown, fun j => ?_, h.get?_widened ho hbase hmax hle,
    h.maxSkippedPerSender, h.maxSkippedTotal⟩
  change (store.setChain i _).getChain j = _
  by_cases hj : j = i
  · subst hj
    rw [getChain_setChain_self hchain, hbase, frontier_insert_self, max_eq_left (by omega), hgen,
      ← walk_add, Option.map_some]
    congr 2
    omega
  · rw [getChain_setChain_of_ne hj, frontier_insert_of_ne asked hj]
    exact h.chain j

end Ahead

/-! ## Whole sequences of requests -/

variable (c) in
/-- The requests that the senders' own stores could serve. -/
def served (origin : SenderKeyStore) (requests : List (ℕ × ℕ)) : Finset (ℕ × ℕ) :=
  (requests.filter fun r => (ownKey c origin r.1 r.2).isSome).toFinset

variable (c) in
/-- The store after a sequence of requests. -/
def afterRequests (store : SenderKeyStore) (requests : List (ℕ × ℕ)) : SenderKeyStore :=
  requests.foldl (fun s r => endState ((getMessageKey c r.1 r.2).run s)) store

theorem mem_served {r : ℕ × ℕ} :
    r ∈ served c origin requests ↔ r ∈ requests ∧ (ownKey c origin r.1 r.2).isSome := by
  rw [served, mem_toFinset, mem_filter]

theorem served_snoc (requests : List (ℕ × ℕ)) (r : ℕ × ℕ) :
    served c origin (requests ++ [r]) = if (ownKey c origin r.1 r.2).isSome
      then insert r (served c origin requests) else served c origin requests := by
  rw [served, filter_append, toFinset_append, filter_cons, filter_nil]
  split_ifs with hown
  · rw [Finset.union_comm]
    rfl
  · exact Finset.union_empty _

/-- One request: it gives the sender's own key if it is the first one for it. -/
theorem Serves.request (h : Serves c origin (served c origin requests) store) (ho : origin.Fresh)
    (hfits : Fits origin (served c origin (requests ++ [(i, g)]))) :
    (outcome ((getMessageKey c i g).run store)).toOption =
        (if (i, g) ∈ requests then none else ownKey c origin i g) ∧
      Serves c origin (served c origin (requests ++ [(i, g)]))
        (endState ((getMessageKey c i g).run store)) := by
  rw [served_snoc] at hfits ⊢
  cases hown : ownKey c origin i g with
  | none =>
    obtain ⟨e, hrun⟩ := h.refuses ho (.inl hown)
    rw [hrun, ite_self]
    exact ⟨rfl, h⟩
  | some key =>
    have hsome : (ownKey c origin i g).isSome := Option.isSome_of_eq_some hown
    rw [if_pos hsome] at hfits
    rw [← hown, if_pos hsome]
    have hmem : (i, g) ∈ served c origin requests ↔ (i, g) ∈ requests := by
      rw [mem_served, and_iff_left hsome]
    by_cases hasked : (i, g) ∈ served c origin requests
    · obtain ⟨e, hrun⟩ := h.refuses ho (.inr hasked)
      rw [hrun, if_pos (hmem.mp hasked), Finset.insert_eq_of_mem hasked]
      exact ⟨rfl, h⟩
    · have hserved : ∃ store', (getMessageKey c i g).run store = .ok key store' ∧
          Serves c origin (insert (i, g) (served c origin requests)) store' := by
        rcases lt_or_ge g (frontier (served c origin requests) i) with hlt | hge
        · exact h.fetch hown hasked hlt
        · exact h.advance ho hown hge hfits
      obtain ⟨store', hrun, hserves⟩ := hserved
      rw [hrun, if_neg (hmem.not.mp hasked), hown]
      exact ⟨rfl, hserves⟩

theorem Fresh.serves_afterRequests (ho : origin.Fresh)
    (hfits : ∀ done, done <+: requests → Fits origin (served c origin done)) :
    Serves c origin (served c origin requests) (origin.afterRequests c requests) := by
  induction requests using List.reverseRecOn with
  | nil => exact ho.serves
  | append_singleton requests r ih =>
    have hbefore := ih fun done hdone => hfits done (hdone.trans (prefix_append requests [r]))
    rw [afterRequests, foldl_append]
    exact (hbefore.request ho (hfits _ prefix_rfl)).2

/-- As long as the skipped keys stay within the limits, a request gets the key that the sender's own
chain has for the generation the first time, and fails every later time, whatever the order of the
requests. -/
theorem requests_served {epochSecret groupContextHash : Bytes} {leafIndices : List ℕ}
    {enhanced : Bool} {maxGeneration maxSkippedPerSender : ℕ}
    (hstore : newEpochWithPolicy c epochSecret leafIndices groupContextHash enhanced maxGeneration
      maxSkippedPerSender = .ok store) {requests : List (ℕ × ℕ)}
    (hfits : ∀ done, done <+: requests → Fits store (served c store done))
    {done : List (ℕ × ℕ)} (hdone : done ++ [(i, g)] <+: requests) :
    (outcome ((getMessageKey c i g).run (store.afterRequests c done))).toOption =
      if (i, g) ∈ done then none else ownKey c store i g := by
  have hfresh := fresh_newEpochWithPolicy hstore
  have hserves := hfresh.serves_afterRequests fun before hbefore ↦
    hfits before (hbefore.trans ((prefix_append done _).trans hdone))
  exact (hserves.request hfresh (hfits _ hdone)).1

/-- The store of an epoch with two senders. -/
def sampleEpoch : SenderKeyStore :=
  (newEpochWithPolicy .transparent (List.replicate 32 7) [0, 1] [] false 100 4).toOption.getD
    sampleStore

/-- Both senders' first keys are skipped, and one of them is asked for later. -/
theorem requests_served_sample :
    (outcome ((getMessageKey .transparent 0 0).run
      (sampleEpoch.afterRequests .transparent [(0, 1), (1, 2)]))).toOption =
        if (0, 0) ∈ [(0, 1), (1, 2)] then none else ownKey .transparent sampleEpoch 0 0 := by
  have hstore : newEpochWithPolicy .transparent (List.replicate 32 7) [0, 1] [] false 100 4 =
      .ok sampleEpoch := by
    rw [sampleEpoch, ← Option.get_eq_getD (h := by decide +kernel)]
    exact eq_ok_get_toOption _
  have hfew : ∀ done ∈ [(0, 1), (1, 2), (0, 0)].inits,
      (outstanding (served .transparent sampleEpoch done)).card ≤ 4 := by decide +kernel
  refine requests_served hstore (fun done (hdone : done <+: [(0, 1), (1, 2), (0, 0)]) ↦ ?_)
    prefix_rfl
  have hcard := hfew done ((mem_inits _ _).mpr hdone)
  exact ⟨hcard.trans (by decide), fun i ↦ (Finset.card_filter_le _ _).trans hcard⟩

end SenderKeyStore

end AuraProtocol.Group
