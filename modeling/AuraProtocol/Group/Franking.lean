import AuraProtocol.Group.Message
import AuraProtocol.Group.TreeHash

/-!
# Franking tags

A franking tag is the HMAC of a message's content type, contents, nonce and seal key under a
key of its own.  The four byte strings have their lengths in front and the content type has a
fixed width, so the input of the HMAC can be read back, and a tag stands for one message only
(`eq_of_verifyFranking`).
-/

namespace AuraProtocol.Group

open GroupSession (buildFrankingInput verifyFranking)

/-- What the HMAC of a report is computed over. -/
def FrankingData.input (data : FrankingData) : Bytes :=
  buildFrankingInput data.contentType data.content data.sealedContent data.sealedNonce data.sealKey

/-- The content type is a `u32`, and the lengths of the fields fit into one. -/
structure FrankingData.Encodable (data : FrankingData) : Prop where
  contentType : data.contentType < 2 ^ 32
  content : data.content.length < 2 ^ 32
  sealedContent : data.sealedContent.length < 2 ^ 32
  sealedNonce : data.sealedNonce.length < 2 ^ 32
  sealKey : data.sealKey.length < 2 ^ 32

theorem FrankingData.input_eq (data : FrankingData) :
    data.input = groupFrankingTagInfo ++ leBytes 4 groupProtocolVersion ++
      (leBytes 4 data.contentType ++ (lenPrefixed data.content ++ (lenPrefixed data.sealedContent ++
        (lenPrefixed data.sealedNonce ++ (lenPrefixed data.sealKey ++ []))))) := by
  simp only [input, buildFrankingInput, List.append_assoc, List.append_nil]

/-- The fields of a report can be read back from the input of the HMAC. -/
theorem FrankingData.fields_eq_of_input_eq {a b : FrankingData} (ha : a.Encodable)
    (hb : b.Encodable) (h : a.input = b.input) :
    a.contentType = b.contentType ∧ a.content = b.content ∧ a.sealedContent = b.sealedContent ∧
      a.sealedNonce = b.sealedNonce ∧ a.sealKey = b.sealKey := by
  rw [input_eq, input_eq] at h
  have hfields := List.append_cancel_left h
  obtain ⟨htype, hrest⟩ := List.append_inj hfields (by rw [length_leBytes, length_leBytes])
  obtain ⟨hcontent, hrest⟩ := lenPrefixed_append_inj ha.content hb.content hrest
  obtain ⟨hsealed, hrest⟩ := lenPrefixed_append_inj ha.sealedContent hb.sealedContent hrest
  obtain ⟨hnonce, hrest⟩ := lenPrefixed_append_inj ha.sealedNonce hb.sealedNonce hrest
  obtain ⟨hkey, -⟩ := lenPrefixed_append_inj ha.sealKey hb.sealKey hrest
  exact ⟨leBytes_injective ha.contentType hb.contentType htype, hcontent, hsealed, hnonce, hkey⟩

namespace GroupSession

variable {c : Crypto} {a b : FrankingData}

theorem verifyFranking_eq_true :
    verifyFranking c a = true ↔ c.hmacSha256 a.frankingKey a.input = a.frankingTag := by
  rw [verifyFranking, decide_eq_true_iff]
  rfl

/-- Two reports that verify under the same key and tag are the same report.  The HMAC has to be
injective on the inputs of these two only. -/
theorem eq_of_verifyFranking (ha : a.Encodable) (hb : b.Encodable)
    (hkey : a.frankingKey = b.frankingKey) (htag : a.frankingTag = b.frankingTag)
    (hinj : Set.InjOn (c.hmacSha256 a.frankingKey) {a.input, b.input})
    (hverify : verifyFranking c a = true) (hverify' : verifyFranking c b = true) : a = b := by
  rw [verifyFranking_eq_true] at hverify hverify'
  have hmac : c.hmacSha256 a.frankingKey a.input = c.hmacSha256 a.frankingKey b.input := by
    rw [hverify, htag, ← hverify', hkey]
  have hinput : a.input = b.input := hinj (.inl rfl) (.inr rfl) hmac
  obtain ⟨htype, hcontent, hsealed, hnonce, hseal⟩ :=
    FrankingData.fields_eq_of_input_eq ha hb hinput
  cases a
  cases b
  cases hkey
  cases htag
  cases htype
  cases hcontent
  cases hsealed
  cases hnonce
  cases hseal
  rfl

/-- A report of a plain message. -/
def sampleReport : FrankingData where
  frankingTag := Crypto.transparent.hmacSha256 (List.replicate 32 1)
    (buildFrankingInput 0 [104, 105] [] [] [])
  frankingKey := List.replicate 32 1
  content := [104, 105]
  sealedContent := []
  contentType := 0
  sealedNonce := []
  sealKey := []

/-- The same bytes, split in another way. -/
def splitReport : FrankingData := { sampleReport with content := [104], sealedContent := [105] }

theorem eq_of_verifyFranking_split :
    verifyFranking .transparent sampleReport = true ∧
      verifyFranking .transparent splitReport = false := by
  have hverify : verifyFranking .transparent sampleReport = true := by
    decide +kernel
  refine ⟨hverify, Bool.eq_false_iff.mpr fun hsplit ↦ ?_⟩
  have hne : Crypto.transparent.hmacSha256 sampleReport.frankingKey sampleReport.input ≠
      Crypto.transparent.hmacSha256 sampleReport.frankingKey splitReport.input := by
    decide +kernel
  have hinj : Set.InjOn (Crypto.transparent.hmacSha256 sampleReport.frankingKey)
      {sampleReport.input, splitReport.input} := Set.injOn_pair.mpr fun h ↦ absurd h hne
  have heq := eq_of_verifyFranking (c := .transparent) (a := sampleReport) (b := splitReport)
    ⟨by decide, by decide, by decide, by decide, by decide⟩
    ⟨by decide, by decide, by decide, by decide, by decide⟩ rfl rfl hinj hverify hsplit
  exact absurd (congrArg FrankingData.content heq) (by decide)

end GroupSession

end AuraProtocol.Group
