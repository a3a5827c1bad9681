import AuraProtocol.Group.Sealed

/-!
# The store of a session

What holds of the sender keys of every session: one chain for each leaf, in order,
under the session's policy, and skipped keys only of generations that the chain
has passed (`Wf`).  A key that was taken is spent: the chain is past it and it is
not among the skipped keys.  No operation on the store brings a spent key back.
An exported store comes back without its skipped keys (`restored_chains`).
-/

namespace AuraProtocol.Group

open Fallible SenderKeyChain List

variable {m : OrdMap (ℕ ×ₗ ℕ) Bytes} {key v : Bytes} {k : ℕ ×ₗ ℕ}

/-! ## Spent keys -/

namespace SenderKeyStore

variable {c : Crypto} {policy : GroupSecurityPolicy} {store store' : SenderKeyStore}
  {chain chain' : SenderKeyChain} {i j generation : ℕ}

/-- What holds of the store of every session: one chain for each leaf, in order, under the
session's policy, and skipped keys only of generations that the chain has passed. -/
structure Wf (policy : GroupSecurityPolicy) (store : SenderKeyStore) : Prop where
  sorted : (store.chains.map Prod.fst).Pairwise (· < ·)
  leafIndex : ∀ e ∈ store.chains, e.2.leafIndex = e.1
  enhanced : ∀ e ∈ store.chains, e.2.enhanced = policy.enhancedKeySchedule
  maxGeneration : ∀ e ∈ store.chains, e.2.maxGeneration = policy.effectiveMaxMessagesPerEpoch
  maxSkipped : ∀ e ∈ store.chains, e.2.maxSkippedPerSender = policy.effectiveMaxSkippedPerSender
  maxSkippedPerSender : store.maxSkippedPerSender = policy.effectiveMaxSkippedPerSender
  maxSkippedTotal : store.maxSkippedTotal = maxSkippedSenderKeys
  skipped : ∀ i g key, store.skippedKeys.get? (toLex (i, g)) = some key →
    ∃ chain, store.getChain i = some chain ∧ g < chain.generation

/-- The key of a generation is gone. -/
def Spent (store : SenderKeyStore) (i generation : ℕ) : Prop :=
  store.skippedKeys.get? (toLex (i, generation)) = none ∧
    ∀ chain, store.getChain i = some chain → generation < chain.generation

theorem mem_of_getChain (h : store.getChain i = some chain) : (i, chain) ∈ store.chains := by
  obtain ⟨j, hj⟩ := getChain_eq_some.mp h
  have hbeq := List.find?_some hj
  obtain rfl : j = i := eq_of_beq hbeq
  exact mem_of_find?_eq_some hj

/-- Chains that advance keep a store well-formed. -/
theorem Wf.setChain (h : store.Wf policy) (hchain : store.getChain i = some chain)
    (hfollows : chain.Follows chain') : (store.setChain i chain').Wf policy := by
  have hmem := mem_of_getChain hchain
  have hcases : ∀ e ∈ (store.setChain i chain').chains, e = (i, chain') ∨ e ∈ store.chains :=
    fun e he => mem_replaceFirst he
  refine ⟨?_, fun e he => ?_, fun e he => ?_, fun e he => ?_, fun e he => ?_, h.maxSkippedPerSender,
    h.maxSkippedTotal, fun j g key hkey => ?_⟩
  · exact map_fst_replaceFirst store.chains ▸ h.sorted
  · rcases hcases e he with rfl | he
    · exact hfollows.leafIndex.trans (h.leafIndex _ hmem)
    · exact h.leafIndex e he
  · rcases hcases e he with rfl | he
    · exact hfollows.enhanced.trans (h.enhanced _ hmem)
    · exact h.enhanced e he
  · rcases hcases e he with rfl | he
    · exact hfollows.maxGeneration.trans (h.maxGeneration _ hmem)
    · exact h.maxGeneration e he
  · rcases hcases e he with rfl | he
    · exact hfollows.maxSkippedPerSender.trans (h.maxSkipped _ hmem)
    · exact h.maxSkipped e he
  · obtain ⟨old, hold, hlt⟩ := h.skipped j g key hkey
    by_cases hj : j = i
    · subst hj
      cases hchain.symm.trans hold
      exact ⟨chain', getChain_setChain_self hchain, hlt.trans_le hfollows.generation⟩
    · exact ⟨old, (getChain_setChain_of_ne hj).trans hold, hlt⟩

/-- Chains that advance leave spent what was spent. -/
theorem Spent.setChain (h : store.Spent j generation) (hchain : store.getChain i = some chain)
    (hfollows : chain.Follows chain') : (store.setChain i chain').Spent j generation := by
  refine ⟨h.1, fun new hnew => ?_⟩
  by_cases hj : j = i
  · subst hj
    cases (getChain_setChain_self hchain).symm.trans hnew
    exact (h.2 chain hchain).trans_le hfollows.generation
  · exact h.2 new ((getChain_setChain_of_ne hj).symm.trans hnew)

/-! ### The cache of skipped keys -/

theorem get?_of_foldl_erase {keys : List (ℕ ×ₗ ℕ)} (h : (keys.foldl OrdMap.erase m).get? k = some v) :
    m.get? k = some v := by
  induction keys generalizing m with
  | nil => exact h
  | cons key keys ih =>
    have := ih h
    rw [OrdMap.get?_erase] at this
    split_ifs at this
    exact this

/-- The cache limit only evicts. -/
theorem get?_of_enforceCacheLimit (h : store.enforceCacheLimit.skippedKeys.get? k = some v) :
    store.skippedKeys.get? k = some v := by
  have hfold : ∀ (senders : List ℕ) (m : OrdMap (ℕ ×ₗ ℕ) Bytes),
      (senders.foldl (evictSender store.maxSkippedPerSender) m).get? k = some v →
        m.get? k = some v := by
    intro senders
    induction senders with
    | nil => exact fun _ h => h
    | cons sender senders ih => exact fun m h => get?_of_foldl_erase (ih _ h)
  exact hfold _ _ (OrdMap.get?_of_get?_popTo h)

/-- Only the keys that were skipped are cached. -/
theorem get?_of_cacheSkipped {skipped : List (ℕ × Bytes)}
    (h : (store.cacheSkipped i skipped).skippedKeys.get? k = some v) :
    store.skippedKeys.get? k = some v ∨ ∃ e ∈ skipped, k = toLex (i, e.1) ∧ v = e.2 := by
  have hfold : ∀ (es : List (ℕ × Bytes)) (m : OrdMap (ℕ ×ₗ ℕ) Bytes),
      (es.foldl (fun m e => m.insert (toLex (i, e.1)) e.2) m).get? k = some v →
        m.get? k = some v ∨ ∃ e ∈ es, k = toLex (i, e.1) ∧ v = e.2 := by
    intro es
    induction es with
    | nil => exact fun _ h => .inl h
    | cons e es ih =>
      intro m h
      rcases ih _ h with h | ⟨e', he', hk⟩
      · rw [OrdMap.get?_insert] at h
        split_ifs at h with hk
        · exact .inr ⟨e, mem_cons_self, hk, (Option.some.inj h).symm⟩
        · exact .inl h
      · exact .inr ⟨e', mem_cons_of_mem _ he', hk⟩
  exact hfold skipped _ h

/-- What is cached after a key was taken from a chain: what was, and the keys of generations that
the chain walked over. -/
theorem get?_of_consume (h : (store.consume c i chain generation).skippedKeys.get? k = some v) :
    store.skippedKeys.get? k = some v ∨
      ∃ g, k = toLex (i, g) ∧ chain.generation ≤ g ∧ g < generation ∧ v = chain.keyAt c g := by
  rw [consume] at h
  split_ifs at h
  · exact .inl h
  · rcases get?_of_cacheSkipped (get?_of_enforceCacheLimit h) with h | ⟨e, he, hk, hv⟩
    · exact .inl h
    · obtain ⟨n, hn, rfl⟩ := mem_map.mp he
      have := mem_range.mp hn
      refine .inr ⟨chain.generation + n, hk, by omega, by omega, ?_⟩
      rw [hv, keyAt, Nat.add_sub_cancel_left]

theorem getChain_consume :
    (store.consume c i chain generation).getChain j =
      (store.setChain i (chain.walk c (generation + 1 - chain.generation))).getChain j := by
  rw [consume]
  split_ifs <;> rfl

section

variable (hchain : store.getChain i = some chain)
include hchain

theorem Wf.consume (h : store.Wf policy)
    (hle : chain.generation ≤ generation) : (store.consume c i chain generation).Wf policy := by
  have hset := h.setChain hchain
    (follows_walk (c := c) chain (generation + 1 - chain.generation))
  have hchains : (store.consume c i chain generation).chains =
      (store.setChain i (chain.walk c (generation + 1 - chain.generation))).chains := by
    rw [SenderKeyStore.consume]
    split_ifs <;> rfl
  refine ⟨hchains ▸ hset.sorted, hchains ▸ hset.leafIndex, hchains ▸ hset.enhanced,
    hchains ▸ hset.maxGeneration, hchains ▸ hset.maxSkipped, ?_, ?_, fun j g key hkey => ?_⟩
  · rw [SenderKeyStore.consume]
    split_ifs <;> exact h.maxSkippedPerSender
  · rw [SenderKeyStore.consume]
    split_ifs <;> exact h.maxSkippedTotal
  · rw [getChain_consume]
    rcases get?_of_consume hkey with hkey | ⟨g', hk, -, hlt, -⟩
    · exact hset.skipped j g key hkey
    · cases hk
      refine ⟨_, getChain_setChain_self hchain, ?_⟩
      rw [generation_walk]
      omega

theorem Spent.consume (h : store.Spent j generation)
    (g : ℕ) : (store.consume c i chain g).Spent j generation := by
  have hset := h.setChain hchain
    (follows_walk (c := c) chain (g + 1 - chain.generation))
  refine ⟨?_, fun new hnew => hset.2 new (getChain_consume ▸ hnew)⟩
  rw [Option.eq_none_iff_forall_ne_some]
  intro v hv
  rcases get?_of_consume hv with hv | ⟨g', hk, hge, -, -⟩
  · cases h.1.symm.trans hv
  · cases hk
    have := h.2 chain hchain
    omega

/-- The key that was taken is spent. -/
theorem spent_consume (hnone : store.skippedKeys.get? (toLex (i, generation)) = none)
    (hle : chain.generation ≤ generation) :
    (store.consume c i chain generation).Spent i generation := by
  constructor
  · rw [Option.eq_none_iff_forall_ne_some]
    intro v hv
    rcases get?_of_consume hv with hv | ⟨g', hk, -, hlt, -⟩
    · cases hnone.symm.trans hv
    · cases hk
      exact lt_irrefl _ hlt
  · intro new hnew
    rw [getChain_consume, getChain_setChain_self hchain] at hnew
    cases hnew
    rw [generation_walk]
    omega

end

/-- Dropping skipped keys keeps a store well-formed. -/
theorem Wf.of_skipped (h : store.Wf policy)
    (hm : ∀ k v, m.get? k = some v → store.skippedKeys.get? k = some v) :
    ({ store with skippedKeys := m } : SenderKeyStore).Wf policy :=
  ⟨h.sorted, h.leafIndex, h.enhanced, h.maxGeneration, h.maxSkipped, h.maxSkippedPerSender,
    h.maxSkippedTotal, fun j g key hkey => h.skipped j g key (hm _ _ hkey)⟩

theorem get?_of_erase {k' : ℕ ×ₗ ℕ} (h : (m.erase k').get? k = some v) : m.get? k = some v := by
  rw [OrdMap.get?_erase] at h
  split_ifs at h
  exact h

/-- What an operation on the store keeps: it stays well-formed, and spent keys stay spent. -/
def Advances (policy : GroupSecurityPolicy) (store store' : SenderKeyStore) : Prop :=
  store.Wf policy → store'.Wf policy ∧ ∀ i g, store.Spent i g → store'.Spent i g

theorem keeps_getMessageKey (policy : GroupSecurityPolicy) (i generation : ℕ) :
    Keeps (Advances policy) (getMessageKey c i generation) := by
  intro store hwf
  rcases getMessageKey_run (c := c) store i generation with
    ⟨key, -, hrun⟩ | ⟨-, ⟨chain, hchain, hreach, hrun⟩ | ⟨-, e, hrun⟩⟩
  · rw [hrun]
    refine ⟨hwf.of_skipped fun k v h => get?_of_erase h, fun j g hspent => ⟨?_, hspent.2⟩⟩
    rw [endState, OrdMap.get?_erase, hspent.1, ite_self]
  · rw [hrun]
    exact ⟨hwf.consume hchain hreach.1, fun j g hspent => hspent.consume hchain generation⟩
  · rw [hrun]
    exact ⟨hwf, fun _ _ h => h⟩

theorem keeps_nextOwnMessageKey (policy : GroupSecurityPolicy) (i : ℕ) :
    Keeps (Advances policy) (nextOwnMessageKey c i) := by
  intro store hwf
  rcases nextOwnMessageKey_run (c := c) store i with ⟨chain, hchain, -, hrun⟩ | ⟨-, e, hrun⟩
  · rw [hrun]
    have hfollows := follows_walk (c := c) chain 1
    exact ⟨hwf.setChain hchain hfollows, fun j g hspent => hspent.setChain hchain hfollows⟩
  · rw [hrun]
    exact ⟨hwf, fun _ _ h => h⟩

/-- A key that `get_message_key` gave is spent. -/
theorem spent_of_getMessageKey (hwf : store.Wf policy)
    (h : (getMessageKey c i generation).run store = .ok key store') :
    store'.Spent i generation := by
  rcases getMessageKey_run (c := c) store i generation with
    ⟨key', hkey, hrun⟩ | ⟨hnone, ⟨chain, hchain, hreach, hrun⟩ | ⟨-, e, hrun⟩⟩
  · cases h.symm.trans hrun
    refine ⟨OrdMap.get?_erase_self _ _, fun chain hchain => ?_⟩
    obtain ⟨chain', hchain', hlt⟩ := hwf.skipped i generation key hkey
    cases hchain.symm.trans hchain'
    exact hlt
  · cases h.symm.trans hrun
    exact spent_consume hchain hnone hreach.1
  · cases h.symm.trans hrun

/-- A spent key is not given again. -/
theorem not_spent_of_getMessageKey (h : (getMessageKey c i generation).run store = .ok key store') :
    ¬ store.Spent i generation := by
  intro hspent
  rcases getMessageKey_run (c := c) store i generation with
    ⟨key', hkey, -⟩ | ⟨-, ⟨chain, hchain, hreach, -⟩ | ⟨-, e, hrun⟩⟩
  · cases hspent.1.symm.trans hkey
  · exact (hspent.2 chain hchain).not_ge hreach.1
  · cases h.symm.trans hrun

/-! ### The keys a store can give -/

variable (c) in
/-- The key that `get_message_key` gives: a cached one, or else the chain's. -/
def Offers (store : SenderKeyStore) (i generation : ℕ) (key : Bytes) : Prop :=
  store.skippedKeys.get? (toLex (i, generation)) = some key ∨
    store.skippedKeys.get? (toLex (i, generation)) = none ∧
      ∃ chain, store.getChain i = some chain ∧ chain.Reaches generation ∧
        key = chain.keyAt c generation

theorem offers_iff : store.Offers c i generation key ↔
    ∃ store', (getMessageKey c i generation).run store = .ok key store' := by
  rcases getMessageKey_run (c := c) store i generation with
    ⟨key', hkey, hrun⟩ | ⟨hnone, ⟨chain, hchain, hreach, hrun⟩ | ⟨hchains, e, hrun⟩⟩
  · constructor
    · rintro (h | ⟨h, -⟩)
      · cases hkey.symm.trans h
        exact ⟨_, hrun⟩
      · cases hkey.symm.trans h
    · rintro ⟨store', h⟩
      cases hrun.symm.trans h
      exact .inl hkey
  · constructor
    · rintro (h | ⟨-, chain', h, -, rfl⟩)
      · cases hnone.symm.trans h
      · cases hchain.symm.trans h
        exact ⟨_, hrun⟩
    · rintro ⟨store', h⟩
      cases hrun.symm.trans h
      exact .inr ⟨hnone, chain, hchain, hreach, rfl⟩
  · constructor
    · rintro (h | ⟨-, chain', h, hreach, -⟩)
      · cases hnone.symm.trans h
      · exact absurd hreach (hchains chain' h)
    · rintro ⟨store', h⟩
      cases hrun.symm.trans h

/-- A chain that walks on still reaches what is ahead of it. -/
theorem reaches_walk {n : ℕ} (h : chain.Reaches generation)
    (hle : (chain.walk c n).generation ≤ generation) : (chain.walk c n).Reaches generation := by
  have hfollows := follows_walk (c := c) chain n
  refine ⟨hle, hfollows.maxGeneration.symm ▸ h.2.1, ?_⟩
  rw [hfollows.maxSkippedPerSender]
  have := hfollows.generation
  have := h.2.2
  omega

/-- Taking a key from the store takes nothing else from it but what it evicts: what is not spent
afterwards is the same key as before. -/
theorem Offers.of_getMessageKey {g : ℕ} {key' : Bytes} (h : store.Offers c j g key')
    (hwf : store.Wf policy) (hrun : (getMessageKey c i generation).run store = .ok key store')
    (hspent : ¬ store'.Spent j g) : store'.Offers c j g key' := by
  rcases getMessageKey_run (c := c) store i generation with
    ⟨_, -, hrun'⟩ | ⟨-, ⟨chain, hchain, hreach, hrun'⟩ | ⟨-, e, hrun'⟩⟩
  · have hgone := spent_of_getMessageKey hwf hrun
    cases hrun.symm.trans hrun'
    have hne : toLex (j, g) ≠ toLex (i, generation) := by
      intro heq
      cases heq
      exact hspent hgone
    have herase : (store.skippedKeys.erase (toLex (i, generation))).get? (toLex (j, g)) =
        store.skippedKeys.get? (toLex (j, g)) := by
      rw [OrdMap.get?_erase, if_neg hne]
    rcases h with h | ⟨h, hchain⟩
    · exact .inl (herase.trans h)
    · exact .inr ⟨herase.trans h, hchain⟩
  · cases hrun.symm.trans hrun'
    cases hcached : (store.consume c i chain generation).skippedKeys.get? (toLex (j, g)) with
    | some v =>
      refine .inl (hcached.trans (congrArg some ?_))
      rcases get?_of_consume hcached with hold | ⟨g', hk, hge, -, rfl⟩
      · rcases h with h | ⟨h, -⟩
        · exact Option.some.inj (hold.symm.trans h)
        · cases hold.symm.trans h
      · cases hk
        rcases h with h | ⟨-, chain', h, -, rfl⟩
        · -- cached keys are behind the chain, so this one was not cached before
          obtain ⟨chain', hchain', hlt⟩ := hwf.skipped _ _ _ h
          cases hchain.symm.trans hchain'
          omega
        · cases hchain.symm.trans h
          rfl
    | none =>
      refine .inr ⟨hcached, ?_⟩
      -- the key is not spent, so the chain has not passed it
      have hahead : ∃ chain', (store.consume c i chain generation).getChain j = some chain' ∧
          chain'.generation ≤ g := by
        by_contra hno
        refine hspent ⟨hcached, fun chain' hchain' => ?_⟩
        by_contra hle
        exact hno ⟨chain', hchain', not_lt.mp hle⟩
      obtain ⟨chain', hchain', hle⟩ := hahead
      refine ⟨chain', hchain', ?_⟩
      rw [getChain_consume] at hchain'
      by_cases hj : j = i
      · subst hj
        rw [getChain_setChain_self hchain] at hchain'
        cases hchain'
        have hgen := generation_walk (c := c) chain
          (generation + 1 - chain.generation)
        rcases h with h | ⟨-, chain', h, hreach', rfl⟩
        · obtain ⟨chain', hchain', hlt⟩ := hwf.skipped _ _ _ h
          cases hchain.symm.trans hchain'
          omega
        · cases hchain.symm.trans h
          exact ⟨reaches_walk hreach' hle, (keyAt_walk (hgen ▸ hle)).symm⟩
      · rw [getChain_setChain_of_ne hj] at hchain'
        rcases h with h | ⟨-, chain'', h, hreach', rfl⟩
        · obtain ⟨chain'', hchain'', hlt⟩ := hwf.skipped _ _ _ h
          cases hchain'.symm.trans hchain''
          omega
        · cases hchain'.symm.trans h
          exact ⟨hreach', rfl⟩
  · cases hrun.symm.trans hrun'

/-! ### The chain of one epoch -/

variable (c) in
/-- A store follows a sender's chain: its own chain of the sender is that chain at some generation,
and what it cached are keys of that chain. -/
structure Tracks (base : SenderKeyChain) (i : ℕ) (store : SenderKeyStore) : Prop where
  chain : ∃ n, store.getChain i = some (base.walk c n)
  skipped : ∀ g key, store.skippedKeys.get? (toLex (i, g)) = some key →
    base.generation ≤ g ∧ key = base.keyAt c g

variable {base : SenderKeyChain}

/-- A chain with nothing cached follows itself. -/
theorem tracks_self (hchain : store.getChain i = some chain) (hskipped : store.skippedKeys = ∅) :
    store.Tracks c chain i := by
  refine ⟨⟨0, hchain⟩, fun g key h => ?_⟩
  rw [hskipped] at h
  cases h

theorem Tracks.offers (h : store.Tracks c base i) (hoffers : store.Offers c i generation key) :
    key = base.keyAt c generation := by
  rcases hoffers with hcached | ⟨-, chain, hchain, hreach, rfl⟩
  · exact (h.skipped _ _ hcached).2
  · obtain ⟨n, hn⟩ := h.chain
    cases hn.symm.trans hchain
    exact keyAt_walk (generation_walk (c := c) base n ▸ hreach.1)

theorem Tracks.setChain (h : store.Tracks c base i) (hchain : store.getChain j = some chain)
    (n : ℕ) : (store.setChain j (chain.walk c n)).Tracks c base i := by
  refine ⟨?_, h.skipped⟩
  obtain ⟨m, hm⟩ := h.chain
  by_cases hj : i = j
  · subst hj
    cases hm.symm.trans hchain
    exact ⟨m + n, by rw [getChain_setChain_self hchain, walk_add]⟩
  · exact ⟨m, by rw [getChain_setChain_of_ne hj, hm]⟩

theorem keeps_tracks_nextOwnMessageKey (j : ℕ) :
    Keeps (fun store store' => store.Tracks c base i → store'.Tracks c base i)
      (nextOwnMessageKey c j) := by
  intro store h
  rcases nextOwnMessageKey_run (c := c) store j with ⟨chain, hchain, -, hrun⟩ | ⟨-, e, hrun⟩
  · rw [hrun]
    exact h.setChain hchain 1
  · rw [hrun]
    exact h

end SenderKeyStore

/-! ## New and restored stores -/

namespace SenderKeyStore

variable {c : Crypto} {policy : GroupSecurityPolicy} {store : SenderKeyStore}

theorem populatedLeafIndices_sorted (t : RatchetTree) :
    t.populatedLeafIndices.Pairwise (· < ·) :=
  pairwise_lt_range.filter _

/-- The chains `new_epoch_with_policy` makes. -/
theorem mem_newChains {epochSecret groupContextHash : Bytes} {leafIndices : List ℕ}
    {enhanced : Bool} {maxGeneration maxSkippedPerSender : ℕ} {chains : List (ℕ × SenderKeyChain)}
    (h : leafIndices.mapM (fun leafIdx => do
      let base ← GroupKeySchedule.deriveSenderKeyBase c epochSecret leafIdx groupContextHash
      let chain ← newWithPolicy leafIdx base enhanced maxGeneration
        maxSkippedPerSender
      return (leafIdx, chain) : ℕ → Except ProtocolError (ℕ × SenderKeyChain)) = .ok chains) :
    chains.map Prod.fst = leafIndices ∧ ∀ e ∈ chains, e.2.leafIndex = e.1 ∧
      e.2.enhanced = enhanced ∧ e.2.maxGeneration = maxGeneration ∧
      e.2.maxSkippedPerSender = maxSkippedPerSender ∧ e.2.generation = 0 := by
  induction leafIndices generalizing chains with
  | nil =>
    cases h
    exact ⟨rfl, fun e he => (by cases he)⟩
  | cons i rest ih =>
    rw [mapM_cons] at h
    simp only [except_bind_eq_ok] at h
    obtain ⟨_, ⟨base, -, chain, hchain, hentry⟩, others, hothers, hchains⟩ := h
    cases hentry
    cases hchains
    obtain ⟨hfst, hall⟩ := ih hothers
    refine ⟨congrArg (i :: ·) hfst, fun e he => ?_⟩
    rcases mem_cons.mp he with rfl | he
    · rw [newWithPolicy] at hchain
      split_ifs at hchain
      cases hchain
      exact ⟨rfl, rfl, rfl, rfl, rfl⟩
    · exact hall e he

/-- The store of a new epoch is well-formed, and has a chain for each occupied leaf. -/
theorem wf_newSenderStore {t : RatchetTree} {epochSecret groupContextHash : Bytes}
    (h : Commit.newSenderStore c t epochSecret groupContextHash policy = .ok store) :
    store.Wf policy ∧ store.chains.map Prod.fst = t.populatedLeafIndices := by
  rw [Commit.newSenderStore, newEpochWithPolicy, except_bind_eq_ok] at h
  obtain ⟨chains, hchains, hstore⟩ := h
  cases hstore
  obtain ⟨hfst, hall⟩ := mem_newChains hchains
  refine ⟨⟨hfst ▸ populatedLeafIndices_sorted t, fun e he => (hall e he).1,
    fun e he => (hall e he).2.1, fun e he => (hall e he).2.2.1, fun e he => (hall e he).2.2.2.1, rfl,
    rfl,
    fun i g key hkey => ?_⟩, hfst⟩
  cases hkey

/-- Inserting sorted entries and listing them gives the entries back. -/
theorem toList_insertAll {es : List (ℕ × SenderKeyChain)}
    (h : (es.map Prod.fst).Pairwise (· < ·)) :
    ((∅ : OrdMap ℕ SenderKeyChain).insertAll es).toList = es := by
  let m : OrdMap ℕ SenderKeyChain :=
    ⟨es.map fun e => ⟨e.1, e.2⟩, pairwise_map.mpr (pairwise_map.mp h)⟩
  have hm : m.toList = es := by
    change (es.map _).map _ = es
    rw [map_map]
    exact map_id es
  rw [← hm, OrdMap.insertAll_toList]

/-- The chains of an exported store are restored as they were. -/
theorem restored_chains (h : store.Wf policy) :
    ∃ chains, GroupSession.chainsFromState policy (store.exportChains.map
        fun (leafIndex, chainKey, generation) => ⟨leafIndex, chainKey, generation⟩) = .ok chains ∧
      fromChains chains policy.effectiveMaxSkippedPerSender =
        { store with skippedKeys := ∅ } := by
  have htraverse : mapEach (fun sc : GroupMemberSenderChain =>
      fromStateWithPolicy sc.leafIndex sc.chainKey sc.generation
        policy.enhancedKeySchedule policy.effectiveMaxMessagesPerEpoch
        policy.effectiveMaxSkippedPerSender) (store.exportChains.map
          fun (leafIndex, chainKey, generation) => ⟨leafIndex, chainKey, generation⟩) =
      .ok ⟨store.chains.map Prod.snd, by simp [exportChains]⟩ := by
    rw [mapEach_eq_ok]
    change List.Forall₂ _ ((store.chains.map _).map _) (store.chains.map Prod.snd)
    rw [map_map, forall₂_map_left_iff, forall₂_map_right_iff, forall₂_same]
    rintro ⟨i, chain⟩ he
    refine (dif_pos chain.length_chainKey).trans ?_
    rw [← h.enhanced _ he, ← h.maxGeneration _ he, ← h.maxSkipped _ he]
    rfl
  have hentries : (store.chains.map Prod.snd).map (fun chain => (chain.leafIndex, chain)) =
      store.chains := by
    rw [map_map]
    refine (map_congr_left fun e he => ?_).trans (map_id _)
    exact Prod.ext (h.leafIndex e he) rfl
  refine ⟨_, except_bind_eq_ok.mpr ⟨_, htraverse, rfl⟩, ?_⟩
  rw [fromChains, hentries, toList_insertAll h.sorted, h.maxSkippedPerSender.symm,
    h.maxSkippedTotal.symm]

end SenderKeyStore

namespace GroupSession

variable {c : Crypto} {wire : Wire} {s s' : GroupSession}

/-- An exported state opens to the state message of the session. -/
theorem openSealedState_export (hc : c.Correct) {sealedData : Bytes} {counter minCounter : ℕ}
    {entropy : SealingEntropy} {state : GroupProtocolState}
    (hexport : exportSealedState c wire key counter entropy s = .ok sealedData)
    (hopen : openSealedState c wire sealedData key minCounter = .ok state) :
    ∃ hmac, state = { toState wire s with stateHmac := hmac } := by
  simp only [exportSealedState, except_bind_eq_ok] at hexport
  obtain ⟨-, -, -, -, hmacKey, -, dek, hdek, encrypted, hstate, hblob⟩ := hexport
  cases hblob
  simp only [openSealedState, except_bind_eq_ok, mapError_eq_ok, wire.sealedState.decode_encode,
    Except.ok.injEq, exists_eq_left'] at hopen
  obtain ⟨-, -, -, -, -, -, -, -, dek', hdek', plaintext, hplaintext, hdecode⟩ := hopen
  rw [AesGcm.decrypt_of_encrypt hc hdek] at hdek'
  cases hdek'
  rw [AesGcm.decrypt_of_encrypt hc hstate] at hplaintext
  cases hplaintext
  rw [wire.protocolState.decode_encode] at hdecode
  exact ⟨_, (Except.ok.inj hdecode).symm⟩

/-- What a restored session has of the exported one: the epoch, the policy and the sender keys, but
for the skipped ones. -/
theorem fromSealedState_export (hc : c.Correct) {sealedData secret : Bytes} {counter minCounter : ℕ}
    {entropy : SealingEntropy} (hwf : s.senderStore.Wf s.securityPolicy)
    (hexport : exportSealedState c wire key counter entropy s = .ok sealedData)
    (hrestore : fromSealedState c wire sealedData key secret minCounter = .ok s') :
    s'.epoch = s.epoch ∧ s'.securityPolicy = s.securityPolicy ∧
      s'.senderStore = { s.senderStore with skippedKeys := ∅ } := by
  simp only [fromSealedState, except_bind_eq_ok] at hrestore
  obtain ⟨-, -, -, -, secret', -, state, hopen, -, -, tree, -, policy, hpolicy, -, -, chains,
    hchains, external, -, hs'⟩ := hrestore
  cases hs'
  obtain ⟨hmac, rfl⟩ := openSealedState_export hc hexport hopen
  simp only [GroupSecurityPolicy.fromProtoBytes, except_bind_eq_ok, mapError_eq_ok] at hpolicy
  obtain ⟨-, -, hpolicy⟩ := hpolicy
  obtain rfl : s.securityPolicy = policy :=
    Except.ok.inj ((wire.policy.decode_encode s.securityPolicy).symm.trans hpolicy)
  obtain ⟨chains', hchains', hstore⟩ := SenderKeyStore.restored_chains hwf
  obtain rfl : chains = chains' := Except.ok.inj (hchains.symm.trans hchains')
  exact ⟨rfl, rfl, hstore⟩

end GroupSession

end AuraProtocol.Group
