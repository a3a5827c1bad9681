import AuraProtocol.Crypto.Instance
import AuraProtocol.Group.Tree
import AuraProtocol.Lib.HashTree

/-!
# The tree hash

`tree_hash` is the hash of `LeftBalanced.shape` with the messages of
`compute_node_hash_inner` at its nodes (`treeHash_eq`).  Every variable-length field
of a message has its length in front and every message has the index of its node, so
the messages can be read back, and trees with equal hashes have the same leaf count,
the same public keys at every node and the same member at every leaf
(`eq_of_treeHash_eq`).
-/

namespace AuraProtocol.Group

open Fallible Tree List

/-! ## Reading messages back -/

/-- A field with its length in front can be cut off. -/
theorem lenPrefixed_append_inj {a b u v : Bytes} (ha : a.length < 2 ^ 32) (hb : b.length < 2 ^ 32)
    (h : lenPrefixed a ++ u = lenPrefixed b ++ v) : a = b ∧ u = v := by
  rw [lenPrefixed, lenPrefixed, append_assoc, append_assoc] at h
  obtain ⟨hlen, hrest⟩ := append_inj h (by rw [length_leBytes, length_leBytes])
  exact append_inj hrest (leBytes_injective ha hb hlen)

namespace RatchetTree

variable {c : Crypto} {t t' : RatchetTree}

/-- A leaf node is populated exactly when its leaf has data. -/
def Paired (t : RatchetTree) : Prop := ∀ i, t.isBlank (2 * i) = (t.getLeafData i).isNone

/-- The public fields of a tree are shorter than their length prefixes can say. -/
structure ShortFields (t : RatchetTree) : Prop where
  keys : ∀ {i keys}, t.getNodeKeys i = some keys →
    keys.x25519Public.length < 2 ^ 32 ∧ keys.kyberPublic.length < 2 ^ 32
  credential : ∀ {i leaf}, t.getLeafData i = some leaf → leaf.credential.length < 2 ^ 32
  identityEd25519 : ∀ {i leaf}, t.getLeafData i = some leaf →
    leaf.identityEd25519Public.length < 2 ^ 32
  identityX25519 : ∀ {i leaf}, t.getLeafData i = some leaf →
    leaf.identityX25519Public.length < 2 ^ 32
  identityKyber : ∀ {i leaf}, t.getLeafData i = some leaf →
    leaf.identityKyberPublic.length < 2 ^ 32
  signature : ∀ {i leaf}, t.getLeafData i = some leaf → leaf.signature.length < 2 ^ 32

/-- Two trees agree on what is public of a node. -/
def AgreeAt (t t' : RatchetTree) (nodeIdx : ℕ) : Prop :=
  t.getNodePublicKeys nodeIdx = t'.getNodePublicKeys nodeIdx ∧
    (isLeaf nodeIdx = true → t.getLeafData (nodeIdx / 2) = t'.getLeafData (nodeIdx / 2))

/-- The label in front of the message of a node. -/
def hashLabel (t : RatchetTree) (nodeIdx : ℕ) : Bytes :=
  match t.getNodeKeys nodeIdx with
  | none => groupBlankNodeHashLabel
  | some _ => if isLeaf nodeIdx then groupLeafNodeHashLabel else groupParentNodeHashLabel

/-- What the message of a leaf has about its member. -/
def memberContent : Option LeafData → Bytes
  | some leaf => [1] ++ lenPrefixed leaf.credential ++ lenPrefixed leaf.identityEd25519Public ++
      lenPrefixed leaf.identityX25519Public ++ lenPrefixed leaf.identityKyberPublic ++
      lenPrefixed leaf.signature
  | none => [0]

/-- What follows the node index in the message of a node. -/
def hashContent (t : RatchetTree) (nodeIdx : ℕ) : Bytes :=
  match t.getNodeKeys nodeIdx with
  | none => [0]
  | some keys => [1] ++ (lenPrefixed keys.x25519Public ++ (lenPrefixed keys.kyberPublic ++
      if isLeaf nodeIdx then memberContent (t.getLeafData (nodeIdx / 2)) else []))

theorem nodeHashInput_eq (t : RatchetTree) (nodeIdx : ℕ) :
    t.nodeHashInput nodeIdx =
      lenPrefixed (t.hashLabel nodeIdx) ++ (leBytes 4 nodeIdx ++ t.hashContent nodeIdx) := by
  rw [nodeHashInput, hashLabel, hashContent]
  cases t.getNodeKeys nodeIdx with
  | none => simp only [append_assoc]
  | some keys =>
    cases isLeaf nodeIdx with
    | false => simp only [Bool.false_eq_true, if_false, append_assoc, append_nil]
    | true =>
      cases t.getLeafData (nodeIdx / 2) with
      | none => simp only [if_true, append_assoc, memberContent]
      | some leaf => simp only [if_true, append_assoc, memberContent]

theorem length_hashLabel (t : RatchetTree) (nodeIdx : ℕ) :
    (t.hashLabel nodeIdx).length < 2 ^ 32 := by
  rw [hashLabel]
  split
  · decide
  · split_ifs <;> decide

section

variable (ht : t.ShortFields) (ht' : t'.ShortFields)
include ht ht'

/-- The member of a leaf can be read back. -/
theorem memberContent_append_inj {i i' : ℕ} {u u' : Bytes}
    (h : memberContent (t.getLeafData i) ++ u = memberContent (t'.getLeafData i') ++ u') :
    t.getLeafData i = t'.getLeafData i' ∧ u = u' := by
  cases hleaf : t.getLeafData i with
  | none =>
    cases hleaf' : t'.getLeafData i' with
    | none =>
      rw [hleaf, hleaf'] at h
      exact ⟨rfl, (List.cons.inj h).2⟩
    | some leaf' =>
      rw [hleaf, hleaf'] at h
      exact absurd (List.cons.inj h).1 (by decide)
  | some leaf =>
    cases hleaf' : t'.getLeafData i' with
    | none =>
      rw [hleaf, hleaf'] at h
      exact absurd (List.cons.inj h).1 (by decide)
    | some leaf' =>
      rw [hleaf, hleaf'] at h
      simp only [memberContent, append_assoc, cons_append, nil_append,
        List.cons.injEq, true_and] at h
      obtain ⟨hcredential, h⟩ :=
        lenPrefixed_append_inj (ht.credential hleaf) (ht'.credential hleaf') h
      obtain ⟨hed25519, h⟩ :=
        lenPrefixed_append_inj (ht.identityEd25519 hleaf) (ht'.identityEd25519 hleaf') h
      obtain ⟨hx25519, h⟩ :=
        lenPrefixed_append_inj (ht.identityX25519 hleaf) (ht'.identityX25519 hleaf') h
      obtain ⟨hkyber, h⟩ :=
        lenPrefixed_append_inj (ht.identityKyber hleaf) (ht'.identityKyber hleaf') h
      obtain ⟨hsignature, h⟩ :=
        lenPrefixed_append_inj (ht.signature hleaf) (ht'.signature hleaf') h
      refine ⟨congrArg some ?_, h⟩
      obtain ⟨_, _, _, _, _⟩ := leaf
      obtain ⟨_, _, _, _, _⟩ := leaf'
      exact LeafData.mk.injEq .. ▸ ⟨hcredential, hed25519, hx25519, hkyber, hsignature⟩

/-- What is public of a node can be read back. -/
theorem hashContent_append_inj (hp : t.Paired)
    (hp' : t'.Paired) {x : ℕ} {u u' : Bytes}
    (h : t.hashContent x ++ u = t'.hashContent x ++ u') : AgreeAt t t' x ∧ u = u' := by
  rw [AgreeAt, getNodePublicKeys, getNodePublicKeys]
  rw [hashContent, hashContent] at h
  cases hkeys : t.getNodeKeys x with
  | none =>
    cases hkeys' : t'.getNodeKeys x with
    | none =>
      rw [hkeys, hkeys'] at h
      refine ⟨⟨rfl, fun hleaf => ?_⟩, (List.cons.inj h).2⟩
      -- both leaves are blank, so neither has data
      have hx : 2 * (x / 2) = x := Nat.mul_div_cancel' (Nat.dvd_of_mod_eq_zero (eq_of_beq hleaf))
      have hnone := hp (x / 2)
      have hnone' := hp' (x / 2)
      rw [hx, isBlank, hkeys] at hnone
      rw [hx, isBlank, hkeys'] at hnone'
      rw [Option.isNone_iff_eq_none.mp hnone.symm, Option.isNone_iff_eq_none.mp hnone'.symm]
    | some keys' =>
      rw [hkeys, hkeys'] at h
      exact absurd (List.cons.inj h).1 (by decide)
  | some keys =>
    cases hkeys' : t'.getNodeKeys x with
    | none =>
      rw [hkeys, hkeys'] at h
      exact absurd (List.cons.inj h).1 (by decide)
    | some keys' =>
      rw [hkeys, hkeys'] at h
      simp only [append_assoc, cons_append, nil_append, List.cons.injEq,
        true_and] at h
      obtain ⟨hx25519, h⟩ := lenPrefixed_append_inj (ht.keys hkeys).1 (ht'.keys hkeys').1 h
      obtain ⟨hkyber, h⟩ := lenPrefixed_append_inj (ht.keys hkeys).2 (ht'.keys hkeys').2 h
      have hpair : (Option.map (fun keys => (keys.x25519Public, keys.kyberPublic)) (some keys)) =
          Option.map (fun keys => (keys.x25519Public, keys.kyberPublic)) (some keys') := by
        rw [Option.map_some, Option.map_some, hx25519, hkyber]
      cases hleaf : isLeaf x with
      | false =>
        rw [hleaf] at h
        exact ⟨⟨hpair, fun hcontra => absurd hcontra Bool.false_ne_true⟩, h⟩
      | true =>
        rw [hleaf] at h
        obtain ⟨hmember, hrest⟩ := memberContent_append_inj ht ht' h
        exact ⟨⟨hpair, fun _ => hmember⟩, hrest⟩

/-- The index of a node and what is public of it can be read back. -/
theorem nodeHashInput_append_inj (hp : t.Paired)
    (hp' : t'.Paired) {x x' : ℕ} (hx : x < 2 ^ 32) (hx' : x' < 2 ^ 32) {u u' : Bytes}
    (h : t.nodeHashInput x ++ u = t'.nodeHashInput x' ++ u') :
    x = x' ∧ AgreeAt t t' x ∧ u = u' := by
  simp only [nodeHashInput_eq, append_assoc] at h
  obtain ⟨-, h⟩ := lenPrefixed_append_inj (t.length_hashLabel x) (t'.length_hashLabel x') h
  obtain ⟨hindex, h⟩ := append_inj h (by rw [length_leBytes, length_leBytes])
  obtain rfl := leBytes_injective hx hx' hindex
  exact ⟨rfl, hashContent_append_inj ht ht' hp hp' h⟩

end

/-! ## The hash of the shape -/

/-- The messages of `compute_node_hash_inner`. -/
def messages (t : RatchetTree) : LabelTree.Encoding ℕ Bytes Bytes where
  leaf := t.nodeHashInput
  node x l r := t.nodeHashInput x ++ lenPrefixed l ++ lenPrefixed r

variable (c) in
/-- All that `tree_hash` hashes. -/
def hashedMessages (t : RatchetTree) : List Bytes :=
  (LeftBalanced.shape t.leafCount).messages c.sha256 t.messages

theorem computeNodeHashInner_eq (t : RatchetTree) {s : LabelTree ℕ} {depth : ℕ}
    (hs : Tree.Follows t.leafCount s) (hdepth : s.height < depth) :
    t.computeNodeHashInner c depth s.label = .ok (s.hash c.sha256 t.messages) := by
  induction s generalizing depth with
  | leaf x =>
    obtain ⟨depth, rfl⟩ := Nat.exists_eq_succ_of_ne_zero (Nat.ne_zero_of_lt hdepth)
    rw [LabelTree.label_leaf, computeNodeHashInner, if_neg]
    · rfl
    · rintro ⟨h, -⟩
      exact Bool.false_ne_true (h.symm.trans hs.1)
  | node x l r ihl ihr =>
    obtain ⟨depth, rfl⟩ := Nat.exists_eq_succ_of_ne_zero (Nat.ne_zero_of_lt hdepth)
    obtain ⟨hleaf, hlt, hl, hr, hfl, hfr⟩ := hs
    have hheight : max l.height r.height < depth := Nat.lt_of_succ_lt_succ hdepth
    have hL := ihl hfl ((le_max_left _ _).trans_lt hheight)
    have hR := ihr hfr ((le_max_right _ _).trans_lt hheight)
    -- an odd index is that of a tree with more than one leaf
    have hcount : 1 < t.leafCount := by
      rw [isLeaf, beq_eq_false_iff_ne] at hleaf
      rw [nodeCount] at hlt
      split_ifs at hlt <;> omega
    rw [LabelTree.label_node, computeNodeHashInner, if_pos ⟨hleaf, hcount⟩]
    simp only [except_bind_eq_ok]
    exact ⟨_, hl, _, hr, _, hL, _, hR, rfl⟩

theorem treeHash_eq (t : RatchetTree) :
    t.treeHash c = .ok ((LeftBalanced.shape t.leafCount).hash c.sha256 t.messages) := by
  refine except_bind_eq_ok.mpr ⟨_, root_eq t.leafCount_pos, ?_⟩
  exact t.computeNodeHashInner_eq (follows_shape t.leafCount_pos t.leafCount_le_depth)
    (Nat.lt_succ_of_le (LeftBalanced.height_shape t.leafCount_le_depth))

/-- The leaves of the shape are even and its inner nodes are odd. -/
theorem graded_of_follows {n : ℕ} (hn : n ≤ 2 ^ maxTreeDepth) {s : LabelTree ℕ}
    (hs : Tree.Follows n s) :
    s.Graded (fun x => isLeaf x = true ∧ x < 2 ^ 32)
      fun x => isLeaf x = false ∧ x < 2 ^ 32 := by
  have hbound : ∀ {x}, x < nodeCount n → x < 2 ^ 32 := by
    intro x hx
    have : 2 * 2 ^ maxTreeDepth < 2 ^ 32 := by decide
    rw [nodeCount] at hx
    split_ifs at hx <;> omega
  induction s with
  | leaf x => exact ⟨hs.1, hbound hs.2⟩
  | node x l r ihl ihr =>
    obtain ⟨hleaf, hlt, -, -, hfl, hfr⟩ := hs
    exact ⟨⟨hleaf, hbound hlt⟩, ihl hfl, ihr hfr⟩

/-- The messages of two trees can be read back. -/
theorem readable (ht : t.ShortFields) (ht' : t'.ShortFields) (hp : t.Paired) (hp' : t'.Paired) :
    LabelTree.Readable c.sha256 t.messages t'.messages
      (fun x => isLeaf x = true ∧ x < 2 ^ 32) (fun x => isLeaf x = false ∧ x < 2 ^ 32)
      (AgreeAt t t') where
  leaf {x x'} hx hx' h := by
    have hplain : t.nodeHashInput x ++ [] = t'.nodeHashInput x' ++ [] := by
      rw [append_nil, append_nil]
      exact h
    have hread := nodeHashInput_append_inj ht ht' hp hp' hx.2 hx'.2 hplain
    exact ⟨hread.1, hread.2.1⟩
  leaf_ne_node {x x' d d'} hx hx' h := by
    have hplain : t.nodeHashInput x ++ [] =
        t'.nodeHashInput x' ++ (lenPrefixed d ++ lenPrefixed d') := by
      rw [append_nil, ← append_assoc]
      exact h
    have hread := nodeHashInput_append_inj ht ht' hp hp' hx.2 hx'.2 hplain
    exact Bool.false_ne_true (hx'.1.symm.trans (hread.1 ▸ hx.1))
  node_ne_leaf {x x' d d'} hx hx' h := by
    have hplain : t.nodeHashInput x ++ (lenPrefixed d ++ lenPrefixed d') =
        t'.nodeHashInput x' ++ [] := by
      rw [append_nil, ← append_assoc]
      exact h
    have hread := nodeHashInput_append_inj ht ht' hp hp' hx.2 hx'.2 hplain
    exact Bool.false_ne_true (hx.1.symm.trans (hread.1 ▸ hx'.1))
  node {x x' l r l' r'} hx hx' h := by
    have hshort : ∀ b, (c.sha256 b).length < 2 ^ 32 := by
      intro b
      rw [c.length_sha256]
      decide
    simp only [messages, append_assoc] at h
    obtain ⟨hindex, hagree, h⟩ := nodeHashInput_append_inj ht ht' hp hp' hx.2 hx'.2 h
    obtain ⟨hl, h⟩ := lenPrefixed_append_inj (hshort l) (hshort l') h
    have hr := lenPrefixed_append_inj (u := []) (v := []) (hshort r) (hshort r')
      (by rw [append_nil, append_nil]; exact h)
    exact ⟨hindex, hagree, hl, hr.1⟩

/-- Trees with equal hashes have the same number of leaves, the same public keys at every node and
the same member at every leaf, if SHA-256 is injective on the messages of the two. -/
theorem eq_of_treeHash_eq (hp : t.Paired) (hp' : t'.Paired) (ht : t.ShortFields)
    (ht' : t'.ShortFields)
    (hinj : Set.InjOn c.sha256 {b | b ∈ t.hashedMessages c ∨ b ∈ t'.hashedMessages c})
    (heq : t.treeHash c = t'.treeHash c) :
    t.leafCount = t'.leafCount ∧
      (∀ nodeIdx, t.getNodePublicKeys nodeIdx = t'.getNodePublicKeys nodeIdx) ∧
      (∀ nodeIdx, t.isBlank nodeIdx = t'.isBlank nodeIdx) ∧ t.leaves = t'.leaves := by
  rw [treeHash_eq, treeHash_eq] at heq
  obtain ⟨hshape, hagree⟩ := LabelTree.eq_of_hash_eq (readable ht ht' hp hp')
    (graded_of_follows t.leafCount_le_depth
      (follows_shape t.leafCount_pos t.leafCount_le_depth))
    (graded_of_follows t'.leafCount_le_depth
      (follows_shape t'.leafCount_pos t'.leafCount_le_depth))
    hinj (Except.ok.inj heq)
  have hcount := LeftBalanced.shape_injective t.leafCount_pos t'.leafCount_pos hshape
  have hat : ∀ x < LeftBalanced.nodeCount t.leafCount, AgreeAt t t' x := by
    intro x hx
    refine hagree x ?_
    rw [LeftBalanced.labels_shape t.leafCount_pos]
    exact mem_range.mpr hx
  have hkeys : ∀ x, t.getNodePublicKeys x = t'.getNodePublicKeys x := by
    intro x
    by_cases hx : x < LeftBalanced.nodeCount t.leafCount
    · exact (hat x hx).1
    · -- outside of both trees
      have hlen : t.nodes.length ≤ x := by
        rw [t.length_nodes, nodeCount_eq]
        exact not_lt.mp hx
      have hlen' : t'.nodes.length ≤ x := by
        rw [t'.length_nodes, ← hcount, nodeCount_eq]
        exact not_lt.mp hx
      rw [getNodePublicKeys, getNodePublicKeys, getNodeKeys, getNodeKeys,
        List.getElem?_eq_none hlen, List.getElem?_eq_none hlen']
  refine ⟨hcount, hkeys, fun x ↦ ?_, ext_getElem? fun i ↦ ?_⟩
  · have hsome := congrArg Option.isNone (hkeys x)
    rwa [getNodePublicKeys, getNodePublicKeys, Option.isNone_map, Option.isNone_map] at hsome
  · by_cases hi : i < t.leafCount
    · have hdata := (hat (2 * i) (by rw [LeftBalanced.nodeCount]; omega)).2
        (by rw [isLeaf, Nat.mul_mod_right]; rfl)
      rw [Nat.mul_div_cancel_left i Nat.two_pos, getLeafData, getLeafData,
        List.getElem?_eq_getElem (by rw [t.length_leaves]; exact hi),
        List.getElem?_eq_getElem (by rw [t'.length_leaves, ← hcount]; exact hi)] at hdata
      rw [List.getElem?_eq_getElem (by rw [t.length_leaves]; exact hi),
        List.getElem?_eq_getElem (by rw [t'.length_leaves, ← hcount]; exact hi)]
      exact congrArg some hdata
    · rw [List.getElem?_eq_none (by rw [t.length_leaves]; exact not_lt.mp hi),
        List.getElem?_eq_none (by rw [t'.length_leaves, ← hcount]; exact not_lt.mp hi)]

/-- A tree of two members, with or without the private key of the first. -/
def samplePair (x25519Private : Option Bytes) : RatchetTree where
  nodes := [.populated ⟨[1], [2], x25519Private, none⟩ [], .blank,
    .populated ⟨[3], [4], none, none⟩ []]
  leaves := [some ⟨[5], [6], [7], [8], [9]⟩, some ⟨[10], [11], [12], [13], [14]⟩]
  leafCount := 2
  leafCount_pos := by decide
  leafCount_le := by decide
  length_nodes := rfl
  length_leaves := rfl

theorem paired_samplePair (key : Option Bytes) : (samplePair key).Paired := by
  intro i
  rcases i with _ | _ | i <;> rfl

theorem shortFields_samplePair (key : Option Bytes) : (samplePair key).ShortFields := by
  have hleaf : ∀ {i leaf}, (samplePair key).getLeafData i = some leaf →
      leaf ∈ [⟨[5], [6], [7], [8], [9]⟩, (⟨[10], [11], [12], [13], [14]⟩ : LeafData)] := by
    intro i leaf h
    rcases i with _ | _ | i <;> cases h <;> decide
  have hshort : ∀ leaf ∈ [⟨[5], [6], [7], [8], [9]⟩, (⟨[10], [11], [12], [13], [14]⟩ : LeafData)],
      leaf.credential.length < 2 ^ 32 ∧ leaf.identityEd25519Public.length < 2 ^ 32 ∧
        leaf.identityX25519Public.length < 2 ^ 32 ∧ leaf.identityKyberPublic.length < 2 ^ 32 ∧
        leaf.signature.length < 2 ^ 32 := by decide
  refine ⟨fun {i keys} h => ?_, fun h => (hshort _ (hleaf h)).1, fun h => (hshort _ (hleaf h)).2.1,
    fun h => (hshort _ (hleaf h)).2.2.1, fun h => (hshort _ (hleaf h)).2.2.2.1,
    fun h => (hshort _ (hleaf h)).2.2.2.2⟩
  rcases i with _ | _ | _ | i <;> cases h <;> simp

theorem eq_of_treeHash_eq_sample :
    (samplePair none).treeHash .transparent = (samplePair (some [0])).treeHash .transparent ∧
      (samplePair none).leafCount = (samplePair (some [0])).leafCount ∧
      (∀ nodeIdx, (samplePair none).getNodePublicKeys nodeIdx =
        (samplePair (some [0])).getNodePublicKeys nodeIdx) ∧
      (∀ nodeIdx, (samplePair none).isBlank nodeIdx = (samplePair (some [0])).isBlank nodeIdx) ∧
      (samplePair none).leaves = (samplePair (some [0])).leaves := by
  have hhash : (samplePair none).treeHash .transparent =
      (samplePair (some [0])).treeHash .transparent := by
    rw [treeHash_eq, treeHash_eq]
    decide +kernel
  refine ⟨hhash, eq_of_treeHash_eq (paired_samplePair _) (paired_samplePair _)
    (shortFields_samplePair _) (shortFields_samplePair _) ?_ hhash⟩
  have hinj : Set.InjOn Crypto.transparent.sha256
      {b | b ∈ (samplePair none).hashedMessages .transparent} :=
    injOn_of_forall_mem (by decide +kernel)
  have hsame : (samplePair (some [0])).hashedMessages .transparent =
      (samplePair none).hashedMessages .transparent := by decide +kernel
  rw [hsame]
  simpa only [or_self] using hinj

end RatchetTree

end AuraProtocol.Group
