import SwitchPaxos.Wire.Message

/-!
# Packing and unpacking

Unpacking undoes packing, and a payload that was unpacked packs to itself.  A
client packet passes through three controllers on its way: it is wrapped at
the WAN, unwrapped and numbered at the leader, and unpacked at the other nodes.
-/

namespace SwitchPaxos.PaxosMessage

/-- The numbers that fit an unsigned 32-bit field. -/
def U32 (n : ℤ) : Prop := 0 ≤ n ∧ n ≤ UINT32_MAX

instance (n : ℤ) : Decidable (U32 n) := inferInstanceAs (Decidable (_ ∧ _))

theorem assertU32_eq (n : ℤ) :
    assertU32 n = if U32 n then .ok () else .error .assertU32 := rfl

theorem u32_cast {n : ℕ} (fits : n ≤ UINT32_MAX) : U32 n :=
  ⟨Int.natCast_nonneg n, Int.ofNat_le.mpr fits⟩

theorem packJoin_eq (nId : ℤ) (mac : Bytes) :
    packJoin nId mac =
      if U32 nId then
        if mac.length = 6 then .ok (packI nId ++ mac) else .error .assertMac
      else .error .assertU32 := by
  by_cases fits : U32 nId <;>
    simp [packJoin, assertU32_eq, fits, bind, Except.bind]

theorem packAccept_eq (crnd seqno : ℤ) (cval : Bytes) :
    packAccept crnd seqno cval =
      if U32 crnd ∧ U32 seqno then .ok (packI crnd ++ packI seqno ++ cval)
      else .error .assertU32 := by
  by_cases first : U32 crnd <;> by_cases second : U32 seqno <;>
    simp [packAccept, assertU32_eq, first, second, bind, Except.bind]

theorem packLearn_eq (n seqno : ℤ) :
    packLearn n seqno =
      if U32 n ∧ U32 seqno then .ok (packI n ++ packI seqno)
      else .error .assertU32 := by
  by_cases first : U32 n <;> by_cases second : U32 seqno <;>
    simp [packLearn, assertU32_eq, first, second, bind, Except.bind]

/-- The encoder ends in an exception. -/
def Fails (packed : Except Failure Bytes) : Prop :=
  ∃ failure, packed = .error failure

theorem packJoin_fails_iff (nId : ℤ) (mac : Bytes) :
    Fails (packJoin nId mac) ↔ ¬ U32 nId ∨ mac.length ≠ 6 := by
  rw [packJoin_eq, Fails]
  by_cases fits : U32 nId
  · by_cases length : mac.length = 6 <;> simp [fits, length]
  · simp [fits]

theorem packAccept_fails_iff (crnd seqno : ℤ) (cval : Bytes) :
    Fails (packAccept crnd seqno cval) ↔ ¬ U32 crnd ∨ ¬ U32 seqno := by
  rw [packAccept_eq, Fails, ← not_and_or]
  split <;> simp [*]

theorem packLearn_fails_iff (n seqno : ℤ) :
    Fails (packLearn n seqno) ↔ ¬ U32 n ∨ ¬ U32 seqno := by
  rw [packLearn_eq, Fails, ← not_and_or]
  split <;> simp [*]

theorem unpackJoin_packJoin {nId : ℕ} (fits : nId ≤ UINT32_MAX) {mac : Bytes}
    (length : mac.length = 6) :
    (packJoin nId mac >>= unpackJoin) = .ok (nId, mac) := by
  have whole : (packI nId ++ mac).length = 10 := by simp [length]
  rw [packJoin_eq, if_pos (u32_cast fits), if_pos length]
  change unpackJoin (packI nId ++ mac) = _
  rw [unpackJoin, if_pos whole, List.take_left' (length_packI _),
    List.drop_left' (length_packI _), ofBigEndian_packI fits]

theorem unpackAccept_packAccept {n seqno : ℕ} (first : n ≤ UINT32_MAX)
    (second : seqno ≤ UINT32_MAX) (v : Bytes) :
    (packAccept n seqno v >>= unpackAccept) = .ok (n, seqno, v) := by
  rw [packAccept_cast, if_pos ⟨first, second⟩]
  exact unpackAccept_header first second v

theorem unpackLearn_packLearn {n seqno : ℕ} (first : n ≤ UINT32_MAX)
    (second : seqno ≤ UINT32_MAX) :
    (packLearn n seqno >>= unpackLearn) = .ok (n, seqno) := by
  rw [packLearn_cast, if_pos ⟨first, second⟩]
  exact unpackLearn_header first second

theorem unpackClient_packClient (v : Bytes) :
    unpackClient (packClient v) = .ok v := by
  have header : (packI 0 ++ packI 0).length = 8 := by simp
  have long : 8 ≤ (packI 0 ++ packI 0 ++ v).length := by
    rw [List.length_append, header]
    omega
  rw [unpackClient, packClient, if_pos long, List.drop_left' header]

theorem packI_ofBigEndian {field : Bytes} (length : field.length = 4) :
    packI (ofBigEndian field) = field := by
  rw [packI, Int.toNat_natCast, ← length, bigEndian_ofBigEndian]

theorem ofBigEndian_le {field : Bytes} (length : field.length = 4) :
    ofBigEndian field ≤ UINT32_MAX := by
  have bound := ofBigEndian_lt field
  rw [length] at bound
  simp only [UINT32_MAX]
  omega

theorem packJoin_unpackJoin {payload : Bytes} {nId : ℕ} {mac : Bytes}
    (decoded : unpackJoin payload = .ok (nId, mac)) :
    packJoin nId mac = .ok payload := by
  unfold unpackJoin at decoded
  split at decoded
  · next whole =>
      simp only [Except.ok.injEq, Prod.mk.injEq] at decoded
      obtain ⟨rfl, rfl⟩ := decoded
      have field : (payload.take 4).length = 4 := by simp [whole]
      rw [packJoin_eq, if_pos (u32_cast (ofBigEndian_le field)),
        if_pos (by simp [whole]), packI_ofBigEndian field,
        List.take_append_drop]
  · cases decoded

theorem packAccept_unpackAccept {payload : Bytes} {n seqno : ℕ} {v : Bytes}
    (decoded : unpackAccept payload = .ok (n, seqno, v)) :
    packAccept n seqno v = .ok payload := by
  have fits := unpackAccept_le decoded
  unfold unpackAccept at decoded
  split at decoded
  · next long =>
      simp only [Except.ok.injEq, Prod.mk.injEq] at decoded
      obtain ⟨rfl, rfl, rfl⟩ := decoded
      have first : (payload.take 4).length = 4 := by
        rw [List.length_take]
        omega
      have second : ((payload.drop 4).take 4).length = 4 := by
        rw [List.length_take, List.length_drop]
        omega
      have rest : payload.drop 8 = (payload.drop 4).drop 4 := by
        rw [List.drop_drop]
      rw [packAccept_cast, if_pos fits, header, packI_ofBigEndian first,
        packI_ofBigEndian second, rest, List.append_assoc,
        List.take_append_drop, List.take_append_drop]
  · cases decoded

/-- A LEARN is read from an ACCEPT payload by leaving out the packet. -/
theorem unpackLearn_eq (payload : Bytes) :
    unpackLearn payload =
      (unpackAccept payload).map fun fields => (fields.1, fields.2.1) := by
  unfold unpackLearn unpackAccept
  split <;> rfl

/-- The law of the four formats. -/
structure WireFormat : Prop where
  join : ∀ (nId : ℕ) (mac : Bytes), nId ≤ UINT32_MAX → mac.length = 6 →
    (packJoin nId mac >>= unpackJoin) = .ok (nId, mac)
  accept : ∀ (n seqno : ℕ) (v : Bytes), n ≤ UINT32_MAX → seqno ≤ UINT32_MAX →
    (packAccept n seqno v >>= unpackAccept) = .ok (n, seqno, v)
  learn : ∀ n seqno : ℕ, n ≤ UINT32_MAX → seqno ≤ UINT32_MAX →
    (packLearn n seqno >>= unpackLearn) = .ok (n, seqno)
  client : ∀ v, unpackClient (packClient v) = .ok v
  joinFails : ∀ (nId : ℤ) (mac : Bytes),
    Fails (packJoin nId mac) ↔ ¬ U32 nId ∨ mac.length ≠ 6
  acceptFails : ∀ (n seqno : ℤ) (v : Bytes),
    Fails (packAccept n seqno v) ↔ ¬ U32 n ∨ ¬ U32 seqno
  learnFails : ∀ n seqno : ℤ,
    Fails (packLearn n seqno) ↔ ¬ U32 n ∨ ¬ U32 seqno
  rejoin : ∀ payload nId mac, unpackJoin payload = .ok (nId, mac) →
    packJoin nId mac = .ok payload
  reaccept : ∀ payload n seqno v, unpackAccept payload = .ok (n, seqno, v) →
    packAccept n seqno v = .ok payload
  learnOfAccept : ∀ payload, unpackLearn payload =
    (unpackAccept payload).map fun fields => (fields.1, fields.2.1)
  chain : ∀ (n seqno : ℕ) (f : Bytes), n ≤ UINT32_MAX → seqno ≤ UINT32_MAX →
    (unpackClient (packClient f) >>= fun v =>
      packAccept n seqno v >>= unpackAccept) = .ok (n, seqno, f)

/-- Unpacking undoes packing and packing undoes unpacking, for all values that
fit their fields. -/
theorem wireFormat : WireFormat where
  join := fun _ _ fits length => unpackJoin_packJoin fits length
  accept := fun _ _ v first second => unpackAccept_packAccept first second v
  learn := fun _ _ first second => unpackLearn_packLearn first second
  client := unpackClient_packClient
  joinFails := packJoin_fails_iff
  acceptFails := packAccept_fails_iff
  learnFails := packLearn_fails_iff
  rejoin := fun _ _ _ decoded => packJoin_unpackJoin decoded
  reaccept := fun _ _ _ _ decoded => packAccept_unpackAccept decoded
  learnOfAccept := unpackLearn_eq
  chain := by
    intro n seqno f first second
    rw [unpackClient_packClient]
    exact unpackAccept_packAccept first second f

end SwitchPaxos.PaxosMessage
