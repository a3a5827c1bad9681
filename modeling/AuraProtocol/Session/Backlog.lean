import Mathlib.Order.Interval.Finset.Nat
import AuraProtocol.Session.Flow
import AuraProtocol.Session.Replay

/-!
# A receiver with gaps

The parcels a sender sent so far form a line.  A receiver that gets them in any
order has passed a first part of that trail: it is at the view behind that part,
and its cache holds exactly the keys of the parcels in it that were not delivered
(`Receiver`).  A parcel behind the receiver is opened with a cached key
(`Receiver.deliverPassed`); one ahead of it makes the receiver walk along its
chain and pass the parcels in between (`Receiver.deliverMessage`,
`Receiver.deliverRatchet`); and one that was delivered before fails and changes
nothing (`Receiver.deliverAgain`).
-/

namespace AuraProtocol.Session

open Fallible List OrdMap

variable {c : Crypto} {w : Wire} {k i n epoch j : ℕ} {rc : ChainState} {p : Parcel}
  {seg trail : List Parcel} {D : Finset ℕ} {r : SessionInner} {v v' : View} {clock : Clock}
  {key : Bytes} {isOldEpoch : Bool} {snapshot : Option RatchetSnapshot}

/-! ## Lines of parcels -/

/-- The position of a parcel in its direction. -/
def Parcel.slot (p : Parcel) : Slot := Session.slot p.epoch p.index

/-- The position of the next parcel at a view. -/
def View.slot (v : View) : Slot := Session.slot v.epoch v.index

theorem slot_lt_slot {e e' i' : ℕ} : slot e i < slot e' i' ↔ e < e' ∨ e = e' ∧ i < i' := by
  rw [slot, slot, Prod.Lex.toLex_lt_toLex]

section Line

variable {ps : List Parcel}

theorem Carries.sealedAt (h : Carries c w r v p v') :
    ∃ u, SealedAt c w r u p ∧ v' = u.next c ∧ v.slot ≤ u.slot := by
  cases h with
  | message hsealed => exact ⟨v, hsealed, rfl, le_rfl⟩
  | ratchet hfull _ hsealed =>
    refine ⟨v.turn _ hfull, hsealed, rfl, ?_⟩
    exact slot_le_slot.mpr (.inl (Nat.lt_succ_self _))

/-- A parcel stands between the views it leads from and to. -/
theorem Carries.slot_lt (h : Carries c w r v p v') : v.slot ≤ p.slot ∧ p.slot < v'.slot := by
  obtain ⟨u, hsealed, rfl, hle⟩ := h.sealedAt
  have hslot : p.slot = u.slot := congrArg Parcel.slot hsealed.parcel_eq
  rw [hslot]
  exact ⟨hle, slot_lt_slot.mpr (.inr ⟨rfl, Nat.lt_succ_self _⟩)⟩

theorem Carries.epoch_eq (h : Carries c w r v p v') :
    p.epoch = v'.epoch ∧ p.metadataKey = v'.metadataKey := by
  obtain ⟨u, hsealed, rfl, -⟩ := h.sealedAt
  exact ⟨congrArg Parcel.epoch hsealed.parcel_eq, congrArg Parcel.metadataKey hsealed.parcel_eq⟩

section

variable (h : Run (Carries c w r) v ps v')
include h

theorem line_slot_le : v.slot ≤ v'.slot :=
  h.invariant (P := fun u => v.slot ≤ u.slot)
    (fun _ _ _ _ hstep hu => hu.trans (hstep.slot_lt.1.trans hstep.slot_lt.2.le)) le_rfl

/-- The parcels of a line stand between its ends, in order. -/
theorem line_sorted :
    (∀ p ∈ ps, v.slot ≤ p.slot ∧ p.slot < v'.slot) ∧
      ps.Pairwise fun p q => p.slot < q.slot := by
  induction h with
  | nil => exact ⟨fun p hp => (by cases hp), .nil⟩
  | cons hstep hrest ih =>
    obtain ⟨hle, hlt⟩ := hstep.slot_lt
    refine ⟨fun q hq => ?_, pairwise_cons.mpr ⟨fun q hq => ?_, ih.2⟩⟩
    · rcases mem_cons.mp hq with rfl | hq
      · exact ⟨hle, hlt.trans_le (line_slot_le hrest)⟩
      · exact ⟨(hle.trans hlt.le).trans (ih.1 q hq).1, (ih.1 q hq).2⟩
    · exact hlt.trans_le (ih.1 q hq).1

theorem line_ratchetEpoch :
    ∀ p ∈ ps, p.envelope.ratchetEpoch = p.epoch := by
  induction h with
  | nil => exact fun p hp => by cases hp
  | cons hstep _ ih =>
    intro p hp
    rcases mem_cons.mp hp with rfl | hp
    · obtain ⟨_, hsealed, -, -⟩ := hstep.sealedAt
      exact hsealed.epoch
    · exact ih p hp

theorem line_epoch_getLast (hne : ps ≠ []) :
    (ps.getLast hne).epoch = v'.epoch := by
  rw [← dropLast_append_getLast hne] at h
  obtain ⟨_, -, hlast⟩ := h.exists_of_append
  cases hlast with
  | cons hstep hnil =>
    cases hnil
    exact hstep.epoch_eq.1

/-- As long as the epoch does not change, neither does the metadata key. -/
theorem line_metadataKey (hepoch : v'.epoch = v.epoch) :
    v'.metadataKey = v.metadataKey := by
  induction h with
  | nil => rfl
  | @cons v u v' p _ hstep hrest ih =>
    have hle : u.epoch ≤ v'.epoch := by
      have := slot_le_slot.mp (line_slot_le hrest)
      omega
    cases hstep with
    | message => exact ih hepoch
    | ratchet => exact absurd hle (by rw [hepoch]; exact Nat.not_succ_le_self _)

/-- A parcel of the epoch a line ends in was sealed with the metadata key the line ends with. -/
theorem line_metadataKey_of_mem (hp : p ∈ ps)
    (hepoch : p.epoch = v'.epoch) : p.metadataKey = v'.metadataKey := by
  obtain ⟨l, l', rfl⟩ := append_of_mem hp
  obtain ⟨u, -, hrest⟩ := h.exists_of_append
  cases hrest with
  | cons hstep hrest =>
    obtain ⟨he, hkey⟩ := hstep.epoch_eq
    rw [hkey]
    exact (line_metadataKey hrest (hepoch.symm.trans he)).symm

end

theorem View.next_advance (c : Crypto) (v : View) (n : ℕ) :
    (v.next c).advance c n = v.advance c (n + 1) := by
  have hindex : v.index + 1 + n = v.index + (n + 1) := by omega
  simp only [View.next, View.advance, hindex, chainKeyAt_succ']

/-- Without a ratchet, a line moves along one chain. -/
theorem line_of_messages (h : Run (Carries c w r) v ps v')
    (hfree : ∀ p ∈ ps, p.envelope.hasRatchetHeader = false) :
    v' = v.advance c ps.length ∧
      ∀ j p, ps[j]? = some p → p = (v.advance c j).parcel p.toPacket p.nonce := by
  induction h with
  | nil => exact ⟨rfl, fun j p hp => (by cases hp)⟩
  | @cons v u v' q qs hstep hrest ih =>
    cases hstep with
    | ratchet _ hturns _ =>
      exact absurd (hfree q mem_cons_self) (by rw [hturns.hasRatchetHeader]; decide)
    | message hsealed =>
      obtain ⟨hend, hat⟩ := ih fun p hp => hfree p (mem_cons_of_mem _ hp)
      refine ⟨hend.trans (View.next_advance c v _), fun j p hp => ?_⟩
      cases j with
      | zero =>
        obtain rfl : q = p := Option.some.inj hp
        exact hsealed.parcel_eq
      | succ j =>
        have hj := hat j p hp
        rwa [View.next_advance] at hj

/-- A parcel is determined by its slot. -/
theorem line_slot_inj (h : Run (Carries c w r) v ps v') {j : ℕ} {q : Parcel} (hp : ps[i]? = some p)
    (hq : ps[j]? = some q) (hslot : p.slot = q.slot) : i = j := by
  have hsorted := pairwise_iff_getElem.mp (line_sorted h).2
  obtain ⟨hi, rfl⟩ := List.getElem?_eq_some_iff.mp hp
  obtain ⟨hj, rfl⟩ := List.getElem?_eq_some_iff.mp hq
  rcases lt_trichotomy i j with hlt | heq | hlt
  · exact absurd hslot (hsorted i j hi hj hlt).ne
  · exact heq
  · exact absurd hslot (hsorted j i hj hi hlt).ne'

end Line

/-! ## Owed keys -/

/-- The positions of a line that were not delivered and are not too old at an epoch. -/
def owed (trail : List Parcel) (D : Finset ℕ) (epoch : ℕ) : Finset ℕ :=
  (Finset.range trail.length).filter fun j =>
    j ∉ D ∧ ∀ p ∈ trail[j]?, epoch ≤ p.epoch + maxSkippedKeyEpochAge

/-- The cache holds exactly the keys of the owed positions. -/
def Holds (c : Crypto) (trail : List Parcel) (D : Finset ℕ) (epoch : ℕ) (m : OrdMap Slot Bytes) :
    Prop :=
  ∀ e i key, m.get? (slot e i) = some key ↔ ∃ j ∈ owed trail D epoch, ∃ p, trail[j]? = some p ∧
    p.epoch = e ∧ p.index = i ∧ messageKeyOf c p.chainKey = key

theorem mem_owed {p : Parcel}
    (hp : trail[j]? = some p) :
    j ∈ owed trail D epoch ↔ j ∉ D ∧ epoch ≤ p.epoch + maxSkippedKeyEpochAge := by
  obtain ⟨hlt, -⟩ := List.getElem?_eq_some_iff.mp hp
  rw [owed, Finset.mem_filter, Finset.mem_range, hp]
  simp [hlt]

theorem lt_of_mem_owed
    (hj : j ∈ owed trail D epoch) : j < trail.length :=
  Finset.mem_range.mp (Finset.mem_filter.mp hj).1

theorem mem_owed_append
    (hlt : j < trail.length) :
    j ∈ owed (trail ++ seg) D epoch ↔ j ∈ owed trail D epoch := by
  have hp := List.getElem?_eq_getElem hlt
  rw [mem_owed hp, mem_owed ((List.getElem?_append_left hlt).trans hp)]

theorem owed_snoc_delivered (trail : List Parcel) (p : Parcel) (D : Finset ℕ) (epoch : ℕ) :
    owed (trail ++ [p]) (insert trail.length D) epoch = owed trail D epoch := by
  ext j
  simp only [owed, Finset.mem_filter, Finset.mem_range, length_append, length_singleton,
    Finset.mem_insert, not_or]
  constructor
  · rintro ⟨hlt, ⟨hne, hj⟩, hepoch⟩
    have hlt' : j < trail.length := by omega
    rw [List.getElem?_append_left hlt'] at hepoch
    exact ⟨hlt', hj, hepoch⟩
  · rintro ⟨hlt, hj, hepoch⟩
    rw [List.getElem?_append_left hlt]
    exact ⟨by omega, ⟨by omega, hj⟩, hepoch⟩

section Holds

variable {m : OrdMap Slot Bytes}

section

variable (h : Holds c trail D epoch m)
include h

theorem Holds.of_mem_keys {k : Slot} (hk : k ∈ m.keys) :
    ∃ j p, trail[j]? = some p ∧ (j ∉ D ∧ epoch ≤ p.epoch + maxSkippedKeyEpochAge) ∧
      p.epoch = (ofLex k).1 ∧ p.slot = k := by
  obtain ⟨key, hkey⟩ := Option.isSome_iff_exists.mp (mem_keys.mp hk)
  rw [← slot_eta k] at hkey
  obtain ⟨j, hj, p, hp, he, hi, -⟩ := (h _ _ _).mp hkey
  exact ⟨j, p, hp, (mem_owed hp).mp hj, he, by rw [Parcel.slot, he, hi, slot_eta]⟩

/-- No more keys are cached than owed, also from an epoch on. -/
theorem Holds.card_filter_le (epoch' : ℕ) :
    (m.keys.filter fun k => epoch' - maxSkippedKeyEpochAge ≤ (ofLex k).1).card ≤
      (owed trail D epoch').card := by
  have hsub : (m.keys.filter fun k => epoch' - maxSkippedKeyEpochAge ≤ (ofLex k).1) ⊆
      (owed trail D epoch').image fun j => ((trail[j]?).map Parcel.slot).getD (slot 0 0) := by
    intro k hk
    obtain ⟨hmem, hepoch⟩ := Finset.mem_filter.mp hk
    obtain ⟨j, p, hp, hj, he, hslot⟩ := h.of_mem_keys hmem
    refine Finset.mem_image.mpr ⟨j, (mem_owed hp).mpr ⟨hj.1, by omega⟩, ?_⟩
    rw [hp, Option.map_some, Option.getD_some, hslot]
  exact (Finset.card_le_card hsub).trans Finset.card_image_le

theorem Holds.size_le : m.size ≤ (owed trail D epoch).card := by
  rw [← card_keys]
  refine le_trans (Finset.card_le_card fun k hk => ?_) (h.card_filter_le epoch)
  obtain ⟨j, p, -, ⟨-, hage⟩, he, -⟩ := h.of_mem_keys hk
  exact Finset.mem_filter.mpr ⟨hk, by omega⟩

/-- Taking out the key of a position delivers it. -/
theorem Holds.erase {p : Parcel} (hk : trail[k]? = some p)
    (hinj : ∀ j q, trail[j]? = some q → q.slot = p.slot → j = k) :
    Holds c trail (insert k D) epoch (m.erase (slot p.epoch p.index)) := by
  intro e i key
  rw [OrdMap.get?_erase]
  constructor
  · intro hkey
    split_ifs at hkey with hslot
    obtain ⟨j, hj, q, hq, he, hi, hkey⟩ := (h e i key).mp hkey
    refine ⟨j, (mem_owed hq).mpr ⟨?_, ((mem_owed hq).mp hj).2⟩, q, hq, he, hi, hkey⟩
    rintro hmem
    rcases Finset.mem_insert.mp hmem with rfl | hmem
    · obtain rfl : q = p := Option.some.inj (hq.symm.trans hk)
      exact hslot (by rw [he, hi])
    · exact ((mem_owed hq).mp hj).1 hmem
  · rintro ⟨j, hj, q, hq, rfl, rfl, rfl⟩
    obtain ⟨hjD, hepoch⟩ := (mem_owed hq).mp hj
    rw [if_neg, h]
    · exact ⟨j, (mem_owed hq).mpr ⟨fun hmem => hjD (Finset.mem_insert_of_mem hmem), hepoch⟩, q, hq,
        rfl, rfl, rfl⟩
    · intro hslot
      exact hjD (Finset.mem_insert.mpr (.inl (hinj j q hq hslot)))

/-- A delivered parcel at the end of the line owes nothing. -/
theorem Holds.snoc_delivered (p : Parcel) :
    Holds c (trail ++ [p]) (insert trail.length D) epoch m := by
  intro e i key
  rw [h e i key, owed_snoc_delivered]
  refine exists_congr fun j => and_congr_right fun hj => ?_
  rw [List.getElem?_append_left (lt_of_mem_owed hj)]

/-- Later epochs drop the keys that have become too old. -/
theorem Holds.age {epoch' : ℕ} (hle : epoch ≤ epoch') :
    Holds c trail D epoch'
      (m.popWhile fun k => decide ((ofLex k).1 < epoch' - maxSkippedKeyEpochAge)) := by
  intro e i key
  rw [OrdMap.get?_popWhile epoch_lt_of_slot_le]
  constructor
  · intro hkey
    split_ifs at hkey with hold
    obtain ⟨j, hj, p, hp, rfl, rfl, hpkey⟩ := (h e i key).mp hkey
    rw [decide_eq_true_eq] at hold
    have hepoch : ¬ p.epoch < epoch' - maxSkippedKeyEpochAge := hold
    exact ⟨j, (mem_owed hp).mpr ⟨((mem_owed hp).mp hj).1, by omega⟩, p, hp, rfl, rfl, hpkey⟩
  · rintro ⟨j, hj, p, hp, rfl, rfl, hkey⟩
    obtain ⟨hjD, hepoch⟩ := (mem_owed hp).mp hj
    have hold : ¬ p.epoch < epoch' - maxSkippedKeyEpochAge := by omega
    rw [if_neg (by rw [decide_eq_true_eq]; exact hold), h]
    exact ⟨j, (mem_owed hp).mpr ⟨hjD, by omega⟩, p, hp, rfl, rfl, hkey⟩

end

/-- Walking along the chain owes the keys of the parcels passed over. -/
theorem Holds.walk {v : View} (h : Holds c trail D v.epoch m)
    (hseg : ∀ j p, seg[j]? = some p → p = (v.advance c j).parcel p.toPacket p.nonce)
    (hD : ∀ j ∈ D, j < trail.length) (hline : ∀ p ∈ trail, p.slot < v.slot) :
    Holds c (trail ++ seg) D v.epoch
      (insertKeys c v.epoch seg.length v.index v.chainKey m) := by
  have hat : ∀ j p, seg[j]? = some p → p.epoch = v.epoch ∧ p.index = v.index + j ∧
      p.chainKey = chainKeyAt c v.chainKey j := by
    intro j p hp
    rw [hseg j p hp]
    exact ⟨rfl, rfl, rfl⟩
  intro e i key
  rw [get?_insertKeys]
  split_ifs with hin
  · obtain ⟨rfl, hle, hlt⟩ := hin
    have hi : i - v.index < seg.length := by omega
    constructor
    · intro hkey
      have hp : (trail ++ seg)[trail.length + (i - v.index)]? = some seg[i - v.index] := by
        rw [List.getElem?_append_right (Nat.le_add_right _ _), Nat.add_sub_cancel_left,
          List.getElem?_eq_getElem hi]
      obtain ⟨hepoch, hindex, hchain⟩ := hat _ _ (List.getElem?_eq_getElem hi)
      refine ⟨_, (mem_owed hp).mpr ⟨fun hmem => ?_, by omega⟩, _, hp, hepoch, by omega, ?_⟩
      · have := hD _ hmem
        omega
      · rw [hchain]
        exact Option.some.inj hkey
    · rintro ⟨j, -, p, hp, he, hi', rfl⟩
      rcases Nat.lt_or_ge j trail.length with hj | hj
      · rw [List.getElem?_append_left hj] at hp
        have hslot := slot_lt_slot.mp (hline p (mem_of_getElem? hp))
        omega
      · rw [List.getElem?_append_right hj] at hp
        obtain ⟨-, hindex, hchain⟩ := hat _ _ hp
        rw [hchain, ← hi', hindex, Nat.add_sub_cancel_left]
  · rw [h e i key]
    constructor
    · rintro ⟨j, hj, p, hp, hrest⟩
      have hlt := lt_of_mem_owed hj
      exact ⟨j, (mem_owed_append hlt).mpr hj, p, (List.getElem?_append_left hlt).trans hp, hrest⟩
    · rintro ⟨j, hj, p, hp, he, hi, hkey⟩
      rcases Nat.lt_or_ge j trail.length with hlt | hge
      · rw [List.getElem?_append_left hlt] at hp
        exact ⟨j, (mem_owed_append hlt).mp hj, p, hp, he, hi, hkey⟩
      · rw [List.getElem?_append_right hge] at hp
        obtain ⟨hepoch, hindex, -⟩ := hat _ _ hp
        obtain ⟨hlt, -⟩ := List.getElem?_eq_some_iff.mp hp
        exact absurd ⟨he.symm.trans hepoch, by omega, by omega⟩ hin

/-- A cache that holds what is owed has nothing to evict by age. -/
theorem Holds.roomFor_eq {r : SessionInner}
    (h : Holds c trail D r.state.recvRatchetEpoch r.skippedMessageKeys) (n : ℕ) :
    roomFor n r = r.skippedMessageKeys.popTo (maxSkippedMessageKeys - n) := by
  have hkeep : r.skippedMessageKeys.popWhile (fun k =>
      decide ((ofLex k).1 < r.state.recvRatchetEpoch - maxSkippedKeyEpochAge)) =
        r.skippedMessageKeys := by
    refine popWhile_of_forall fun k hk => ?_
    obtain ⟨j, p, -, ⟨-, hage⟩, he, -⟩ := h.of_mem_keys hk
    exact decide_eq_false (by omega)
  exact congrArg (OrdMap.popTo _) hkeep

end Holds

/-- Parcels that are passed over add to what is owed. -/
theorem card_owed_append {epoch : ℕ}
    (hD : ∀ j ∈ D, j < trail.length) (hseg : ∀ p ∈ seg, epoch ≤ p.epoch + maxSkippedKeyEpochAge) :
    (owed trail D epoch).card + seg.length ≤ (owed (trail ++ seg) D epoch).card := by
  have hdisj : Disjoint (owed trail D epoch)
      (Finset.Ico trail.length (trail.length + seg.length)) := by
    refine Finset.disjoint_left.mpr fun j hj hj' => ?_
    have hlt := lt_of_mem_owed hj
    have hle := (Finset.mem_Ico.mp hj').1
    omega
  have hcard : (Finset.Ico trail.length (trail.length + seg.length)).card = seg.length := by
    rw [Nat.card_Ico, Nat.add_sub_cancel_left]
  rw [← hcard, ← Finset.card_union_of_disjoint hdisj]
  refine Finset.card_le_card fun j hj => ?_
  rcases Finset.mem_union.mp hj with hj | hj
  · exact (mem_owed_append (lt_of_mem_owed hj)).mpr hj
  · obtain ⟨hle, hlt⟩ := Finset.mem_Ico.mp hj
    have hlt' : j - trail.length < seg.length := by omega
    have hp : (trail ++ seg)[j]? = some seg[j - trail.length] := by
      rw [List.getElem?_append_right hle, List.getElem?_eq_getElem hlt']
    refine (mem_owed hp).mpr ⟨fun hmem => ?_, hseg _ (getElem_mem hlt')⟩
    have := hD j hmem
    omega

/-- Making room drops oldest keys first.  If only keys are dropped that are too old at an epoch,
it makes no difference there. -/
theorem popWhile_insertKeys_popTo {c : Crypto} {m : OrdMap Slot Bytes} {epoch' bound : ℕ}
    (hcard : (m.keys.filter fun k => epoch' - maxSkippedKeyEpochAge ≤ (ofLex k).1).card ≤ bound)
    (epoch count index : ℕ) (chainKey : Bytes) :
    (insertKeys c epoch count index chainKey (m.popTo bound)).popWhile
        (fun k => decide ((ofLex k).1 < epoch' - maxSkippedKeyEpochAge)) =
      (insertKeys c epoch count index chainKey m).popWhile
        (fun k => decide ((ofLex k).1 < epoch' - maxSkippedKeyEpochAge)) := by
  refine ext_get? fun k => ?_
  rw [OrdMap.get?_popWhile epoch_lt_of_slot_le, OrdMap.get?_popWhile epoch_lt_of_slot_le]
  split_ifs with hold
  · rfl
  · have hk : epoch' - maxSkippedKeyEpochAge ≤ (ofLex k).1 := by
      rw [decide_eq_true_eq] at hold
      omega
    have hkeep : (m.popTo bound).get? k = m.get? k := by
      refine OrdMap.get?_popTo_of_upper (fun a b hab ha => ?_) hcard hk
      rw [← slot_eta a, ← slot_eta b, slot_le_slot] at hab
      omega
    rw [← slot_eta k] at hkeep ⊢
    rw [get?_insertKeys, get?_insertKeys, hkeep]

/-! ## What is kept of past epochs -/

/-- A ratchet keeps the metadata key of the epoch it ends, and drops those that are too old. -/
theorem get?_retireMetadataKey {s : SessionInner}
    (hlt : ∀ e ∈ s.cachedMetadataKeys.keys, e < s.state.recvRatchetEpoch) (e : ℕ) :
    (retireMetadataKey s).cachedMetadataKeys.get? e =
      if e < s.state.recvRatchetEpoch - maxMetadataKeyEpochAge then none
      else if e = s.state.recvRatchetEpoch then some s.state.metadataKey
      else s.cachedMetadataKeys.get? e := by
  have hlower : ∀ a b : ℕ, a ≤ b →
      decide (b < s.state.recvRatchetEpoch - maxMetadataKeyEpochAge) = true →
      decide (a < s.state.recvRatchetEpoch - maxMetadataKeyEpochAge) = true := by
    intro a b hab hb
    rw [decide_eq_true_eq] at hb ⊢
    exact hab.trans_lt hb
  have hsize : ((s.cachedMetadataKeys.insert s.state.recvRatchetEpoch s.state.metadataKey).popWhile
      fun e => decide (e < s.state.recvRatchetEpoch - maxMetadataKeyEpochAge)).size ≤
        maxCachedMetadataKeys := by
    rw [← card_keys]
    refine (Finset.card_le_card (t := Finset.Icc
      (s.state.recvRatchetEpoch - maxMetadataKeyEpochAge) s.state.recvRatchetEpoch) ?_).trans ?_
    · intro e he
      have hnew := mem_keys.mp he
      rw [OrdMap.get?_popWhile hlower] at hnew
      split_ifs at hnew with hold
      · cases hnew
      rw [decide_eq_true_eq] at hold
      have hmem := keys_popWhile_subset _ _ he
      rw [keys_insert, Finset.mem_insert] at hmem
      refine Finset.mem_Icc.mpr ⟨not_lt.mp hold, ?_⟩
      rcases hmem with rfl | hmem
      · exact le_rfl
      · exact (hlt e hmem).le
    · rw [Nat.card_Icc, maxMetadataKeyEpochAge, maxCachedMetadataKeys]
      omega
  change (OrdMap.popTo _ (OrdMap.popWhile _ (OrdMap.insert _ _ _))).get? e = _
  rw [popTo_of_size_le hsize, OrdMap.get?_popWhile hlower, OrdMap.get?_insert]
  simp only [decide_eq_true_eq]

section Received

variable {envelope : SecureEnvelope} {result : DecryptResult} {s s' : SessionInner}

theorem Entered.seenPayloadNonces (h : Entered c envelope s isOldEpoch snapshot s') :
    s'.seenPayloadNonces = s.seenPayloadNonces := by
  cases h with
  | ratchet _ _ happly => exact ((applyRecvRatchet_keeps c envelope).of_ok happly).seenPayloadNonces
  | current => rfl
  | old => rfl

theorem takeMessageKey_seenPayloadNonces
    (h : (takeMessageKey c envelope isOldEpoch i).run s = .ok key s') :
    s'.seenPayloadNonces = s.seenPayloadNonces := by
  cases isOldEpoch with
  | true =>
    obtain ⟨-, rfl⟩ := trySkippedKey_eq_ok.mp h
    rfl
  | false => exact (getRecvMessageKey_frame h).seenPayloadNonces

theorem Received.seenPayloadNonces_subset (h : Received c w clock envelope s result s') :
    s'.seenPayloadNonces ⊆ insert result.metadata.payloadNonce s.seenPayloadNonces := by
  have hsub := recordReceived_seenPayloadNonces result.metadata.payloadNonce h.activityUnix
    h.totalReceived h.keyed
  rw [← h.final_eq, takeMessageKey_seenPayloadNonces h.take, h.isEntered.seenPayloadNonces] at hsub
  exact hsub

theorem Received.totalMessagesReceived (h : Received c w clock envelope s result s') :
    s'.state.totalMessagesReceived = s.state.totalMessagesReceived + 1 := by
  have hcheck := h.check
  simp only [checkDecrypt, except_bind_eq_ok, orError_eq_ok, checkedAdd_eq_some] at hcheck
  obtain ⟨_, -, _, -, _, -, _, -, total, ⟨-, rfl⟩, _, -, _, -, _, -, _, -, hcheck⟩ := hcheck
  obtain ⟨-, htotal⟩ := Prod.mk.inj (Except.ok.inj hcheck)
  have hfinal := congrArg ProtocolState.totalMessagesReceived (recordReceived_state
    result.metadata.payloadNonce h.activityUnix h.totalReceived h.keyed)
  rw [← h.final_eq] at hfinal
  exact hfinal.trans htotal.symm

end Received

/-! ## The receiver -/

/-- The receiver has passed a line of parcels, made for the session `r₀` it started as, of which
those at the positions `D` were delivered. -/
structure Receiver (c : Crypto) (w : Wire) (r₀ : SessionInner) (v₀ : View) (passed : List Parcel)
    (D : Finset ℕ) (v : View) (r : SessionInner) : Prop where
  run : Run (Carries c w r₀) v₀ passed v
  sendSide : SendSide r₀ r
  recvAt : RecvAt r v
  delivered_lt : ∀ j ∈ D, j < passed.length
  /-- It has passed no more than it had to. -/
  last : passed ≠ [] → passed.length - 1 ∈ D
  ratchets : ∀ j p, passed[j]? = some p → p.envelope.hasRatchetHeader = true → j ∈ D
  skipped : Holds c passed D v.epoch r.skippedMessageKeys
  metadata : ∀ p ∈ passed, p.epoch < v.epoch → r.cachedMetadataKeys.get? p.epoch =
    if v.epoch ≤ p.epoch + maxMetadataKeyEpochAge + 1 then some p.metadataKey else none
  cached_lt : ∀ e ∈ r.cachedMetadataKeys.keys, e < v.epoch
  seen : ∀ n ∈ r.seenPayloadNonces, ∃ j ∈ D, ∃ p, passed[j]? = some p ∧ p.nonce = n
  total : r.state.totalMessagesReceived = D.card

section Receiver

variable {r₀ : SessionInner} {v₀ : View} {passed : List Parcel} {now : ℕ}

theorem RecvAt.withSkipped {r : SessionInner} {v : View} (h : RecvAt r v) (m : OrdMap Slot Bytes) :
    RecvAt (r.withSkipped m) v :=
  ⟨h.epoch, h.chain, h.metadataKey, h.rootKey, h.dhRemotePublic, h.kyberRemotePublic⟩

theorem Entered.of_header_eq_true {envelope : SecureEnvelope} {s s₁ : SessionInner}
    (h : Entered c envelope s isOldEpoch snapshot s₁) (hheader : envelope.hasRatchetHeader = true) :
    checkRatchetEnvelope envelope s = .ok () := by
  cases h with
  | ratchet _ hcheck _ => exact hcheck
  | current hfalse => cases hfalse.symm.trans hheader
  | old hfalse => cases hfalse.symm.trans hheader

theorem Entered.of_header_eq_false {envelope : SecureEnvelope} {s s₁ : SessionInner}
    (h : Entered c envelope s isOldEpoch snapshot s₁) (hheader : envelope.hasRatchetHeader = false) :
    s₁ = s ∧ isOldEpoch = decide (envelope.ratchetEpoch < s.state.recvRatchetEpoch) := by
  cases h with
  | ratchet htrue => cases hheader.symm.trans htrue
  | current _ hepoch => exact ⟨rfl, (decide_eq_false hepoch.not_lt).symm⟩
  | old _ hlt => exact ⟨rfl, (decide_eq_true hlt).symm⟩

/-- The end of a line is its last position. -/
theorem last_mem_insert (D : Finset ℕ) (passed seg : List Parcel) (p : Parcel) :
    (passed ++ (seg ++ [p])).length - 1 ∈ insert (passed.length + seg.length) D := by
  have hlen : (passed ++ (seg ++ [p])).length - 1 = passed.length + seg.length := by
    simp only [length_append, length_singleton]
    omega
  rw [hlen]
  exact Finset.mem_insert_self _ _

theorem getElem?_last (passed seg : List Parcel) (p : Parcel) :
    (passed ++ (seg ++ [p]))[passed.length + seg.length]? = some p := by
  rw [← append_assoc, ← length_append, List.getElem?_concat_length]

theorem caughtUp_cachedMetadataKeys (c : Crypto) (rc : ChainState) (n : ℕ) (r : SessionInner) :
    (caughtUp c rc n r).cachedMetadataKeys = r.cachedMetadataKeys := by
  rw [caughtUp]
  split_ifs <;> rfl

theorem caughtUp_metadataKey (c : Crypto) (rc : ChainState) (n : ℕ) (r : SessionInner) :
    (caughtUp c rc n r).state.metadataKey = r.state.metadataKey := by
  rw [caughtUp]
  split_ifs <;> rfl

section

variable (h : Receiver c w r₀ v₀ passed D v r)
include h

/-- What a delivery does to the books: the positions, the nonces and the count. -/
theorem Receiver.received
    {result : DecryptResult} {r' : SessionInner} (ahead : List Parcel)
    (hreceived : Received c w clock p.envelope r result r')
    (hmetadata : result.metadata = p.metadata) (hk : k ∉ D) (hp : (passed ++ ahead)[k]? = some p)
    (hrun : Run (Carries c w r₀) v ahead v') (hat : RecvAt r' v')
    (hlast : passed ++ ahead ≠ [] → (passed ++ ahead).length - 1 ∈ insert k D)
    (hratchets : ∀ j q, ahead[j]? = some q → q.envelope.hasRatchetHeader = true →
      passed.length + j = k)
    (hskipped : Holds c (passed ++ ahead) (insert k D) v'.epoch r'.skippedMessageKeys)
    (hkeys : ∀ q ∈ passed ++ ahead, q.epoch < v'.epoch → r'.cachedMetadataKeys.get? q.epoch =
      if v'.epoch ≤ q.epoch + maxMetadataKeyEpochAge + 1 then some q.metadataKey else none)
    (hcached : ∀ e ∈ r'.cachedMetadataKeys.keys, e < v'.epoch) :
    Receiver c w r₀ v₀ (passed ++ ahead) (insert k D) v' r' where
  run := h.run.append hrun
  sendSide := h.sendSide.trans hreceived.sendSide
  recvAt := hat
  delivered_lt := by
    intro j hj
    rcases Finset.mem_insert.mp hj with rfl | hj
    · exact (List.getElem?_eq_some_iff.mp hp).1
    · rw [length_append]
      exact Nat.lt_add_right _ (h.delivered_lt j hj)
  last := hlast
  ratchets := by
    intro j q hq hheader
    rcases Nat.lt_or_ge j passed.length with hj | hj
    · rw [List.getElem?_append_left hj] at hq
      exact Finset.mem_insert_of_mem (h.ratchets j q hq hheader)
    · rw [List.getElem?_append_right hj] at hq
      have := hratchets _ q hq hheader
      exact Finset.mem_insert.mpr (.inl (by omega))
  skipped := hskipped
  metadata := hkeys
  cached_lt := hcached
  seen := by
    intro n hn
    rcases Finset.mem_insert.mp (hreceived.seenPayloadNonces_subset hn) with rfl | hn
    · refine ⟨k, Finset.mem_insert_self _ _, p, hp, ?_⟩
      rw [hmetadata]
      rfl
    · obtain ⟨j, hj, q, hq, hnonce⟩ := h.seen n hn
      refine ⟨j, Finset.mem_insert_of_mem hj, q, ?_, hnonce⟩
      rw [List.getElem?_append_left (h.delivered_lt j hj)]
      exact hq
  total := by
    rw [hreceived.totalMessagesReceived, h.total, Finset.card_insert_of_notMem hk]

section

variable (hp : p ∈ passed)
include hp

/-- The parcels that were passed, also by an epoch, are behind the receiver. -/
theorem Receiver.slot_lt :
    p.slot < v.slot := ((line_sorted h.run).1 p hp).2

theorem Receiver.epoch_le :
    p.epoch ≤ v.epoch := by
  have := slot_lt_slot.mp (h.slot_lt hp)
  omega

/-- The contents of a parcel that was passed. -/
theorem Receiver.sealedAt :
    (∃ u, SealedAt c w r u p) ∧ (p.envelope.hasRatchetHeader = false →
      p.envelope.previousChainLength = none) := by
  obtain ⟨l, l', rfl⟩ := append_of_mem hp
  obtain ⟨_, -, hrest⟩ := h.run.exists_of_append
  cases hrest with
  | cons hstep _ =>
    obtain ⟨u, hsealed, -, -⟩ := hstep.sealedAt
    refine ⟨⟨u, hsealed.congr h.sendSide.sameSession h.sendSide.maxMessagesPerChain⟩, ?_⟩
    cases hstep with
    | message _ _ hpcl => exact fun _ => hpcl
    | ratchet _ hturns _ =>
      intro hheader
      cases hheader.symm.trans hturns.hasRatchetHeader

/-- The receiver has the metadata key of a parcel that was passed not too long ago. -/
theorem Receiver.metadataKeyFor_eq
    (hepoch : p.envelope.ratchetEpoch = p.epoch)
    (hlate : v.epoch ≤ p.epoch + maxSkippedKeyEpochAge) :
    metadataKeyFor p.envelope (decide (p.epoch < v.epoch)) r = .ok p.metadataKey := by
  rw [metadataKeyFor]
  split_ifs with hold
  · have hle : v.epoch ≤ p.epoch + maxMetadataKeyEpochAge + 1 := hlate.trans (Nat.le_succ _)
    rw [hepoch, h.metadata p hp (decide_eq_true_eq.mp hold), if_pos hle]
    rfl
  · have heq : p.epoch = v.epoch :=
      le_antisymm (h.epoch_le hp) (not_lt.mp (by rwa [decide_eq_true_eq] at hold))
    rw [h.recvAt.metadataKey, line_metadataKey_of_mem h.run hp heq]

theorem Receiver.eq_of_metadataKeyFor_eq_ok
    (hepoch : p.envelope.ratchetEpoch = p.epoch)
    (hkey : metadataKeyFor p.envelope (decide (p.epoch < v.epoch)) r = .ok key) :
    key = p.metadataKey := by
  by_cases hlate : v.epoch ≤ p.epoch + maxSkippedKeyEpochAge
  · exact Except.ok.inj (hkey.symm.trans (h.metadataKeyFor_eq hp hepoch hlate))
  · have hold : p.epoch < v.epoch := by omega
    rw [metadataKeyFor, if_pos (decide_eq_true hold), orError_eq_ok, hepoch, h.metadata p hp hold]
      at hkey
    split_ifs at hkey
    exact (Option.some.inj hkey).symm

/-- If the metadata of a parcel that was passed opens, it is what was sealed. -/
theorem Receiver.eq_of_readMetadata_eq_ok (hc : c.Correct)
    {metadata : EnvelopeMetadata}
    (hread : readMetadata c w p.envelope (decide (p.epoch < v.epoch)) r = .ok metadata) :
    metadata = p.metadata := by
  obtain ⟨⟨u, hsealedAt⟩, -⟩ := h.sealedAt hp
  obtain ⟨t, hsame, hsealed⟩ := hsealedAt.isSealed
  rw [readMetadata, except_bind_eq_ok] at hread
  obtain ⟨_, hopen, hread⟩ := hread
  obtain ⟨-, hread⟩ := except_seq_eq_ok.mp hread
  cases hread
  have hkey := hopen
  rw [openMetadata, except_bind_eq_ok] at hkey
  obtain ⟨key, hkey, -⟩ := hkey
  rw [h.eq_of_metadataKeyFor_eq_ok hp hsealedAt.epoch hkey] at hkey
  exact Except.ok.inj (hopen.symm.trans (hsealed.openMetadata hc hsame hkey))

/-- The epoch of a parcel without a ratchet that was passed can be entered, without a change. -/
theorem Receiver.entered
    (hheader : p.envelope.hasRatchetHeader = false) (hepoch : p.envelope.ratchetEpoch = p.epoch) :
    Entered c p.envelope r (decide (p.epoch < v.epoch)) none r := by
  have hpcl := (h.sealedAt hp).2 hheader
  by_cases hold : p.epoch < v.epoch
  · rw [decide_eq_true hold]
    exact .old hheader (by rwa [hepoch, h.recvAt.epoch]) hpcl
  · rw [decide_eq_false hold]
    have heq : p.epoch = v.epoch := le_antisymm (h.epoch_le hp) (not_lt.mp hold)
    exact .current hheader (by rw [hepoch, h.recvAt.epoch, heq]) hpcl

/-- The key of a parcel that was passed can only be taken from the cache. -/
theorem Receiver.takeMessageKey_eq_ok
    (hepoch : p.envelope.ratchetEpoch = p.epoch) (hle : p.index ≤ maxMessageIndex)
    {r' : SessionInner} :
    (takeMessageKey c p.envelope (decide (p.epoch < v.epoch)) p.index).run r = .ok key r' ↔
      r.skippedMessageKeys.get? (slot p.epoch p.index) = some key ∧
        r' = r.withSkipped (r.skippedMessageKeys.erase (slot p.epoch p.index)) := by
  rw [takeMessageKey]
  split_ifs with hold
  · rw [hepoch]
    exact trySkippedKey_eq_ok
  · have hge := not_lt.mp (show ¬ p.epoch < v.epoch by rwa [decide_eq_true_eq] at hold)
    have heq : p.epoch = v.epoch := le_antisymm (h.epoch_le hp) hge
    obtain ⟨rc, hrc, hkey, hindex⟩ := h.recvAt.chain
    have hlt : p.index < rc.messageIndex := by
      have := slot_lt_slot.mp (h.slot_lt hp)
      omega
    rw [getRecvMessageKey_eq_ok, h.recvAt.epoch, ← heq]
    constructor
    · rintro ⟨rc', hrc', ⟨-, htake⟩ | ⟨hle', -⟩⟩
      · exact htake
      · obtain rfl : rc = rc' :=
          Option.some.inj (hrc.symm.trans (checkRecvMessageIndex_eq_ok.mp hrc').1)
        exact absurd hlt (not_lt.mpr hle')
    · intro htake
      exact ⟨rc, checkRecvMessageIndex_eq_ok.mpr ⟨hrc, hkey ▸ v.length_chainKey, hle⟩,
        .inl ⟨hlt, htake⟩⟩

end

/-- A parcel that was passed and not delivered decrypts, if it is not too late. -/
theorem Receiver.deliverPassed (hc : c.Correct)
    (hcan : CanReceive clock r now) (hp : passed[k]? = some p) (hk : k ∉ D)
    (hfresh : p.nonce ∉ r.seenPayloadNonces) (hlate : v.epoch ≤ p.epoch + maxSkippedKeyEpochAge) :
    ∃ result r', (decrypt c w clock p.envelope).run r = .ok result r' ∧
      result.plaintext = p.message.payload ∧ Receiver c w r₀ v₀ passed (insert k D) v r' := by
  have hmem := mem_of_getElem? hp
  obtain ⟨⟨u, hsealedAt⟩, -⟩ := h.sealedAt hmem
  obtain ⟨t, hsame, hsealed⟩ := hsealedAt.isSealed
  have hheader : p.envelope.hasRatchetHeader = false :=
    Bool.not_eq_true _ ▸ fun htrue => hk (h.ratchets k p hp htrue)
  have hkey : r.skippedMessageKeys.get? (slot p.epoch p.index) = some (messageKeyOf c p.chainKey) :=
    (h.skipped _ _ _).mpr ⟨k, (mem_owed hp).mpr ⟨hk, hlate⟩, p, hp, rfl, rfl, rfl⟩
  have htake := (h.takeMessageKey_eq_ok hmem hsealedAt.epoch hsealedAt.good.index_le).mpr ⟨hkey, rfl⟩
  have hdec := decrypt_of_entered hc hsealed (hcan.check hsealed)
    (h.entered hmem hheader hsealedAt.epoch) (h.metadataKeyFor_eq hmem hsealedAt.epoch hlate) hsame
    hsealedAt.good hfresh htake hsame
  obtain ⟨hreceived⟩ := decrypt_eq_ok.mp hdec
  have hinj : ∀ j q, passed[j]? = some q → q.slot = p.slot → j = k :=
    fun j q hq hslot => line_slot_inj h.run hq hp hslot
  have hnew := h.received [] hreceived rfl hk (by rwa [append_nil]) (.nil v)
    ((h.recvAt.withSkipped _).recordReceived _ _ _)
  rw [append_nil, recordReceived_skippedMessageKeys, recordReceived_cachedMetadataKeys] at hnew
  exact ⟨_, _, hdec, rfl, hnew (fun hne => Finset.mem_insert_of_mem (h.last hne))
    (fun j q hq => by cases hq) (h.skipped.erase hp hinj) h.metadata h.cached_lt⟩

/-- A parcel that was delivered does not decrypt again, and the attempt changes nothing. -/
theorem Receiver.deliverAgain (hc : c.Correct)
    (hp : passed[k]? = some p) (hk : k ∈ D) (clock : Clock) :
    ∃ e, (decrypt c w clock p.envelope).run r = .error e r := by
  have hmem := mem_of_getElem? hp
  obtain ⟨⟨u, hsealedAt⟩, -⟩ := h.sealedAt hmem
  have hle := h.epoch_le hmem
  have hold : decide (p.envelope.ratchetEpoch < r.state.recvRatchetEpoch) =
      decide (p.epoch < v.epoch) := by
    rw [hsealedAt.epoch, h.recvAt.epoch]
  cases hrun : (decrypt c w clock p.envelope).run r with
  | ok result r' =>
    obtain ⟨hreceived⟩ := decrypt_eq_ok.mp hrun
    have hread := hreceived.metadata
    have htake := hreceived.take
    cases hheader : p.envelope.hasRatchetHeader with
    | true =>
      have hepoch := checkRatchetEnvelope_epoch (hreceived.isEntered.of_header_eq_true hheader)
      rw [hsealedAt.epoch, h.recvAt.epoch] at hepoch
      omega
    | false =>
      obtain ⟨hentered, hisOld⟩ := hreceived.isEntered.of_header_eq_false hheader
      rw [hentered, hisOld, hold] at hread htake
      rw [h.eq_of_readMetadata_eq_ok hmem hc hread] at htake
      obtain ⟨hkey, -⟩ :=
        (h.takeMessageKey_eq_ok hmem hsealedAt.epoch hsealedAt.good.index_le).mp htake
      obtain ⟨j, hj, q, hq, he, hi, -⟩ := (h.skipped _ _ _).mp hkey
      have hslot : q.slot = p.slot := by rw [Parcel.slot, Parcel.slot, he, hi]
      rw [line_slot_inj h.run hq hp hslot] at hj
      exact absurd hk ((mem_owed hp).mp hj).1
  | error e r' =>
    rcases decrypt_eq_error hrun with rfl | ⟨metadata, rc, hahead⟩
    · exact ⟨e, rfl⟩
    · have hepoch : p.epoch = v.epoch :=
        hsealedAt.epoch.symm.trans (hahead.epoch.trans h.recvAt.epoch)
      have hread := hahead.opens
      rw [← decide_eq_false hepoch.not_lt] at hread
      have hindex : rc.messageIndex ≤ p.index := by
        have := hahead.ahead
        rwa [h.eq_of_readMetadata_eq_ok hmem hc hread] at this
      obtain ⟨rc', hrc', -, hindex'⟩ := h.recvAt.chain
      obtain rfl : rc' = rc :=
        Option.some.inj (hrc'.symm.trans (checkRecvMessageIndex_eq_ok.mp hahead.chain).1)
      have := slot_lt_slot.mp (h.slot_lt hmem)
      omega

/-! ### Moving on -/

/-- What the receiver owes once it has passed some parcels and received the next one. -/
theorem Receiver.holds_walk
    (hseg : ∀ j q, seg[j]? = some q → q = (v.advance c j).parcel q.toPacket q.nonce) (p : Parcel) :
    Holds c (passed ++ (seg ++ [p])) (insert (passed.length + seg.length) D) v.epoch
      (insertKeys c v.epoch seg.length v.index v.chainKey r.skippedMessageKeys) := by
  have hwalk := h.skipped.walk hseg h.delivered_lt fun _ => h.slot_lt
  have hsnoc := hwalk.snoc_delivered p
  rwa [append_assoc, length_append] at hsnoc

theorem Receiver.room {epoch : ℕ}
    (hseg : ∀ q ∈ seg, epoch ≤ q.epoch + maxSkippedKeyEpochAge)
    (hroom : (owed (passed ++ (seg ++ [p])) (insert (passed.length + seg.length) D) epoch).card ≤
      maxSkippedMessageKeys) : (owed passed D epoch).card + seg.length ≤ maxSkippedMessageKeys := by
  rw [← append_assoc, ← length_append, owed_snoc_delivered] at hroom
  exact (card_owed_append h.delivered_lt hseg).trans hroom

/-- A message ahead of the receiver decrypts; those it passes over are owed from now on. -/
theorem Receiver.deliverMessage (hc : c.Correct)
    (hcan : CanReceive clock r now) (hrun : Run (Carries c w r₀) v (seg ++ [p]) v')
    (hfree : ∀ q ∈ seg ++ [p], q.envelope.hasRatchetHeader = false)
    (hfresh : p.nonce ∉ r.seenPayloadNonces)
    (hroom : (owed (passed ++ (seg ++ [p])) (insert (passed.length + seg.length) D) v'.epoch).card ≤
      maxSkippedMessageKeys) :
    ∃ result r', (decrypt c w clock p.envelope).run r = .ok result r' ∧
      result.plaintext = p.message.payload ∧
      Receiver c w r₀ v₀ (passed ++ (seg ++ [p])) (insert (passed.length + seg.length) D) v' r' := by
  obtain ⟨hv', hat⟩ := line_of_messages hrun hfree
  rw [length_append, length_singleton] at hv'
  have hlast : (seg ++ [p])[seg.length]? = some p := List.getElem?_concat_length
  have hp := hat _ _ hlast
  have hepoch : p.epoch = v.epoch := congrArg Parcel.epoch hp
  have hindex : p.index = v.index + seg.length := congrArg Parcel.index hp
  have hchainKey : p.chainKey = chainKeyAt c v.chainKey seg.length := congrArg Parcel.chainKey hp
  have hmetadataKey : p.metadataKey = v.metadataKey := congrArg Parcel.metadataKey hp
  have hseg : ∀ j q, seg[j]? = some q → q = (v.advance c j).parcel q.toPacket q.nonce := by
    intro j q hq
    refine hat j q ?_
    rwa [List.getElem?_append_left (List.getElem?_eq_some_iff.mp hq).1]
  have hsegEpoch : ∀ q ∈ seg, v.epoch ≤ q.epoch + maxSkippedKeyEpochAge := by
    intro q hq
    obtain ⟨j, hj⟩ := mem_iff_getElem?.mp hq
    have : q.epoch = v.epoch := congrArg Parcel.epoch (hseg j q hj)
    omega
  have hvepoch : v'.epoch = v.epoch := by rw [hv']; rfl
  rw [hvepoch] at hroom
  have hle := h.room hsegEpoch hroom
  obtain ⟨_, -, hstep⟩ := hrun.exists_of_append
  obtain ⟨u, hsealedAt, hpcl⟩ : ∃ u, SealedAt c w r u p ∧
      p.envelope.previousChainLength = none := by
    cases hstep with
    | cons hstep _ =>
      cases hstep with
      | message hsealed _ hpcl => exact ⟨_, hsealed.congr h.sendSide.sameSession
          h.sendSide.maxMessagesPerChain, hpcl⟩
      | ratchet _ hturns _ =>
        exact absurd (hfree p (mem_append_right _ mem_cons_self))
          (by rw [hturns.hasRatchetHeader]; decide)
  obtain ⟨t, hsame, hsealed⟩ := hsealedAt.isSealed
  obtain ⟨rc, hrc, hkey, hrcIndex⟩ := h.recvAt.chain
  have hgap : p.index - rc.messageIndex = seg.length := by omega
  have hhonest : HonestAhead c w r rc p.metadata p.message.payload p.envelope := by
    refine ⟨⟨t, hsame, ?_⟩, hfree p (mem_append_right _ mem_cons_self), ?_, hpcl,
      hsealedAt.good, hfresh, hrc, hkey ▸ v.length_chainKey, ?_, ?_⟩
    · have hkey' : chainKeyAt c rc.chainKey (p.metadata.messageIndex - rc.messageIndex) =
          p.chainKey := by
        rw [hkey, hchainKey]
        exact congrArg _ hgap
      rw [hkey', h.recvAt.metadataKey, ← hmetadataKey]
      exact hsealed
    · rw [hsealedAt.epoch, hepoch, h.recvAt.epoch]
    · change rc.messageIndex ≤ p.index
      omega
    · change p.index - rc.messageIndex ≤ _
      omega
  have hdec := hhonest.decrypt hc hcan
  obtain ⟨hreceived⟩ := decrypt_eq_ok.mp hdec
  have hroomFor : roomFor seg.length r = r.skippedMessageKeys := by
    rw [(h.recvAt.epoch ▸ h.skipped : Holds c passed D _ _).roomFor_eq]
    refine popTo_of_size_le (h.skipped.size_le.trans ?_)
    omega
  have hafter : RecvAt (afterAhead c rc p.index p.nonce now r) v' := by
    refine RecvAt.recordReceived _ _ _ ⟨?_, ?_, ?_, ?_, ?_, ?_⟩
    all_goals rw [hv']
    · exact h.recvAt.epoch
    · rw [SessionInner.setRecvChain_recvChain, cacheAhead, SessionInner.withSkipped_state, hrc, hgap]
      exact ⟨_, rfl, congrArg (chainKeyAt c · _) hkey, by rw [hindex]; rfl⟩
    · exact h.recvAt.metadataKey
    · exact h.recvAt.rootKey
    · exact h.recvAt.dhRemotePublic
    · exact h.recvAt.kyberRemotePublic
  have hskipped : (afterAhead c rc p.index p.nonce now r).skippedMessageKeys =
      insertKeys c v.epoch seg.length v.index v.chainKey r.skippedMessageKeys := by
    rw [afterAhead, recordReceived_skippedMessageKeys, hgap, ← h.recvAt.epoch, ← hrcIndex, ← hkey,
      ← hroomFor]
    rfl
  have hcached : (afterAhead c rc p.index p.nonce now r).cachedMetadataKeys =
      r.cachedMetadataKeys := recordReceived_cachedMetadataKeys _ _ _ _
  refine ⟨_, _, hdec, rfl, h.received (seg ++ [p]) hreceived rfl ?_ (getElem?_last passed seg p) hrun
    hafter (fun _ => last_mem_insert D passed seg p) ?_ ?_ ?_ ?_⟩
  · intro hmem
    have := h.delivered_lt _ hmem
    omega
  · intro j q hq hheader
    exact absurd (hheader.symm.trans (hfree q (mem_of_getElem? hq))) (by decide)
  · rw [hvepoch]
    exact hskipped ▸ h.holds_walk hseg p
  · intro q hq hlt
    rw [hvepoch] at hlt ⊢
    rcases mem_append.mp hq with hq | hq
    · exact hcached ▸ h.metadata q hq hlt
    · obtain ⟨j, hj⟩ := mem_iff_getElem?.mp hq
      have : q.epoch = v.epoch := congrArg Parcel.epoch (hat j q hj)
      omega
  · rw [hvepoch]
    exact hcached ▸ h.cached_lt

/-- What a ratchet leaves of the cache, if only keys that it makes too old have to make room. -/
theorem Receiver.skipped_caughtUp
    (hkey : rc.chainKey = v.chainKey) (hindex : rc.messageIndex = v.index)
    (hroom : (owed passed D (v.epoch + 1)).card + n ≤ maxSkippedMessageKeys) :
    (caughtUp c rc n r).skippedMessageKeys.popWhile
        (fun k => decide ((ofLex k).1 < v.epoch + 1 - maxSkippedKeyEpochAge)) =
      (insertKeys c v.epoch n v.index v.chainKey r.skippedMessageKeys).popWhile
        (fun k => decide ((ofLex k).1 < v.epoch + 1 - maxSkippedKeyEpochAge)) := by
  rw [caughtUp]
  split_ifs with hzero
  · rw [hzero]
    rfl
  · have hcard := (h.skipped.card_filter_le (v.epoch + 1)).trans (Nat.le_sub_of_add_le hroom)
    rw [← popWhile_insertKeys_popTo hcard,
      ← (h.recvAt.epoch ▸ h.skipped : Holds c passed D _ _).roomFor_eq, ← h.recvAt.epoch, ← hindex,
      ← hkey]
    rfl

/-- The receiver in the next epoch, before the message that comes with the ratchet. -/
theorem Receiver.skipped_turned
    (step : SendRatchet) (hkey : rc.chainKey = v.chainKey) (hindex : rc.messageIndex = v.index)
    (hseg : ∀ j q, seg[j]? = some q → q = (v.advance c j).parcel q.toPacket q.nonce)
    (hroom : (owed passed D (v.epoch + 1)).card + seg.length ≤ maxSkippedMessageKeys)
    (hroom' : (owed (passed ++ (seg ++ [p])) (insert (passed.length + seg.length) D)
      (v.epoch + 1)).card ≤ maxSkippedMessageKeys) :
    Holds c (passed ++ (seg ++ [p])) (insert (passed.length + seg.length) D) (v.epoch + 1)
      (roomFor 0 (turned step (caughtUp c rc seg.length r))) := by
  have hholds := (h.holds_walk hseg p).age (Nat.le_succ v.epoch)
  rw [Nat.succ_eq_add_one, ← h.skipped_caughtUp hkey hindex hroom] at hholds
  have hepoch : (caughtUp c rc seg.length r).state.recvRatchetEpoch = v.epoch :=
    (caughtUp_epoch c rc _ r).trans h.recvAt.epoch
  have hskipped : (turned step (caughtUp c rc seg.length r)).skippedMessageKeys =
      (caughtUp c rc seg.length r).skippedMessageKeys.popWhile
        (fun k => decide ((ofLex k).1 < v.epoch + 1 - maxSkippedKeyEpochAge)) := by
    rw [turned, skippedMessageKeys_enterRecvEpoch, hepoch]
    exact popTo_of_size_le (hholds.size_le.trans hroom')
  have hturned : (turned step (caughtUp c rc seg.length r)).state.recvRatchetEpoch = v.epoch + 1 :=
    congrArg (· + 1) hepoch
  rw [← hskipped] at hholds
  rw [(hturned ▸ hholds : Holds c _ _ _ _).roomFor_eq, Nat.sub_zero,
    popTo_of_size_le (hholds.size_le.trans hroom')]
  exact hholds

/-- A ratchet keeps the metadata keys that late parcels may need. -/
theorem Receiver.metadata_turned (step : SendRatchet)
    {u : View} (hseg : Run (Carries c w r₀) v seg u) (hepoch : u.epoch = v.epoch) {q : Parcel}
    (hq : q ∈ passed ++ seg) :
    (turned step (caughtUp c rc n r)).cachedMetadataKeys.get? q.epoch =
      if v.epoch + 1 ≤ q.epoch + maxMetadataKeyEpochAge + 1 then some q.metadataKey else none := by
  have hrun := h.run.append hseg
  have hslot := slot_lt_slot.mp ((line_sorted hrun).1 q hq).2
  change (retireMetadataKey (caughtUp c rc n r)).cachedMetadataKeys.get? q.epoch = _
  rw [get?_retireMetadataKey]
  · rw [caughtUp_epoch, caughtUp_cachedMetadataKeys, caughtUp_metadataKey, h.recvAt.epoch,
      h.recvAt.metadataKey]
    by_cases hold : q.epoch < v.epoch - maxMetadataKeyEpochAge
    · rw [if_pos hold, if_neg (by omega)]
    · have hkept : v.epoch + 1 ≤ q.epoch + maxMetadataKeyEpochAge + 1 := by omega
      rw [if_neg hold, if_pos hkept]
      split_ifs with heq
      · rw [line_metadataKey_of_mem hrun hq (heq.trans hepoch.symm), line_metadataKey hseg hepoch]
      · have hmem : q ∈ passed := by
          rcases mem_append.mp hq with hq | hq
          · exact hq
          · have := slot_le_slot.mp ((line_sorted hseg).1 q hq).1
            omega
        rw [h.metadata q hmem (by omega), if_pos (by omega)]
  · rw [caughtUp_epoch, caughtUp_cachedMetadataKeys, h.recvAt.epoch]
    exact h.cached_lt

theorem Receiver.cached_turned_lt (step : SendRatchet) {e : ℕ}
    (he : e ∈ (turned step (caughtUp c rc n r)).cachedMetadataKeys.keys) : e < v.epoch + 1 := by
  have hmem := keys_popWhile_subset _ _ (keys_popTo_subset _ _ he)
  rw [keys_insert, Finset.mem_insert] at hmem
  rcases hmem with rfl | hmem
  · rw [caughtUp_epoch, h.recvAt.epoch]
    exact Nat.lt_succ_self _
  · rw [caughtUp_cachedMetadataKeys] at hmem
    exact Nat.lt_succ_of_lt (h.cached_lt e hmem)

/-- The next ratchet decrypts; the messages left in the epoch before are owed from now on. -/
theorem Receiver.deliverRatchet (hc : c.Correct)
    (hcan : CanReceive clock r now) (hrun : Run (Carries c w r₀) v (seg ++ [p]) v')
    (hfree : ∀ q ∈ seg, q.envelope.hasRatchetHeader = false)
    (hheader : p.envelope.hasRatchetHeader = true) (hfresh : p.nonce ∉ r.seenPayloadNonces)
    (hroom : (owed (passed ++ (seg ++ [p])) (insert (passed.length + seg.length) D) v'.epoch).card ≤
      maxSkippedMessageKeys) :
    ∃ result r', (decrypt c w clock p.envelope).run r = .ok result r' ∧
      result.plaintext = p.message.payload ∧
      Receiver c w r₀ v₀ (passed ++ (seg ++ [p])) (insert (passed.length + seg.length) D) v' r' := by
  obtain ⟨u, hseg, hlast⟩ := hrun.exists_of_append
  obtain ⟨hu, hat⟩ := line_of_messages hseg hfree
  have hepoch : u.epoch = v.epoch := by rw [hu]; rfl
  have hstep : Carries c w r₀ u p v' := by
    cases hlast with
    | cons hstep hnil =>
      cases hnil
      exact hstep
  obtain ⟨rc, hrc, hkey, hindex⟩ := h.recvAt.chain
  cases hstep.congr h.sendSide.sameSession h.sendSide.maxMessagesPerChain
    fun _ => ⟨h.sendSide.dhPrivateHandle, h.sendSide.kyberSecretHandle⟩ with
  | message _ hfalse => cases hfalse.symm.trans hheader
  | @ratchet step hfull hturns hsealed =>
    have hvepoch : ((u.turn step hfull).next c).epoch = v.epoch + 1 := congrArg (· + 1) hepoch
    have hsegEpoch : ∀ q ∈ seg, v.epoch + 1 ≤ q.epoch + maxSkippedKeyEpochAge := by
      intro q hq
      obtain ⟨j, hj⟩ := mem_iff_getElem?.mp hq
      have hqepoch : q.epoch = v.epoch := congrArg Parcel.epoch (hat j q hj)
      rw [hqepoch]
      exact Nat.add_le_add_left (by decide) _
    rw [hvepoch] at hroom
    have hle := h.room hsegEpoch hroom
    have henter := h.recvAt.entered hc hrc (hu ▸ hturns) (le_trans (Nat.le_add_left _ _) hle)
      hcan.maxMessagesPerChain
    have hturned : RecvAt (turned step (caughtUp c rc seg.length r)) (u.turn step hfull) :=
      recvAt_turned ((caughtUp_epoch c rc _ r).trans (h.recvAt.epoch.trans hepoch.symm)) step hfull
    obtain ⟨r', hdec, hat', -, -, hskipped, hcached⟩ := hsealed.decrypt hc hcan henter hturned
      (henter.seenPayloadNonces ▸ hfresh)
    obtain ⟨hreceived⟩ := decrypt_eq_ok.mp hdec
    refine ⟨_, r', hdec, rfl, h.received (seg ++ [p]) hreceived rfl ?_ (getElem?_last passed seg p)
      hrun hat' (fun _ => last_mem_insert D passed seg p) ?_ ?_ ?_ ?_⟩
    · intro hmem
      have := h.delivered_lt _ hmem
      omega
    · intro j q hq hq'
      rcases Nat.lt_or_ge j seg.length with hj | hj
      · rw [List.getElem?_append_left hj] at hq
        exact absurd (hq'.symm.trans (hfree q (mem_of_getElem? hq))) (by decide)
      · have := (List.getElem?_eq_some_iff.mp hq).1
        rw [length_append, length_singleton] at this
        omega
    · rw [hvepoch, hskipped]
      exact h.skipped_turned step hkey hindex hat hle hroom
    · intro q hq hlt
      rw [hvepoch] at hlt ⊢
      rw [hcached]
      rw [← append_assoc] at hq
      rcases mem_append.mp hq with hq | hq
      · exact h.metadata_turned step hseg hepoch hq
      · have : q.epoch = u.epoch + 1 := by
          rw [mem_singleton.mp hq]
          exact congrArg Parcel.epoch hsealed.parcel_eq
        omega
    · intro e he
      rw [hcached] at he
      rw [hvepoch]
      exact h.cached_turned_lt step he

end

end Receiver

end AuraProtocol.Session
