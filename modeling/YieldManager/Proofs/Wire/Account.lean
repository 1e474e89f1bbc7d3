import YieldManager.Program.Fault
import YieldManager.Proofs.Action
import YieldManager.Proofs.Wire.Record

/-
  Accounts read from bytes.  An account is read as the kind
  that its tag names and as no other, and what is read writes
  the bytes that it was read from, up to those behind it.

  Main declarations:
    * `Kind.tag_injective`
    * `Stored.ofBytes_eq_ok_iff`
    * `State.ofBytesAs`
    * `State.Fits`
    * `State.ofBytesAs_eq_ok_iff`
    * `State.ofBytesAs_of_ne`
    * `State.ofBytes?_of_ofBytes`
    * `Wire.bytes_determine_values`
-/

------------------------------------------------------------
-- Tags
------------------------------------------------------------

namespace YieldManager

namespace Kind

/- Every tag has the length of a tag. -/
theorem length_tag (kind : Kind) :
    kind.tag.length = tagLength := by
  cases kind <;> rfl

/- Every kind has a tag of its own. -/
theorem tag_injective {kind other : Kind} :
    kind.tag = other.tag ↔ kind = other := by
  cases kind <;> cases other <;> decide

end Kind

------------------------------------------------------------
-- Records behind Tags
------------------------------------------------------------

namespace Stored

variable {R : Type → Type} [Stored R]
variable {κ : Type} {key : Codec κ}
variable {bytes : List UInt8}

/- What is read stands behind the tag of its kind. -/
theorem ofBytes_eq_ok_iff_decode
    {r : R κ} :
    ofBytes R key bytes = .ok r ↔
      ∃ body rest,
        (kind R).tag ++ body = bytes ∧
          (layout key).decode body = some (r, rest) := by
  unfold ofBytes
  by_cases hShort : bytes.length < Kind.tagLength
  · rw [if_pos hShort]
    constructor
    · intro hEq
      cases hEq
    · intro hSteps
      rcases hSteps with ⟨body, rest, rfl, -⟩
      rw [List.length_append, Kind.length_tag] at hShort
      omega
  rw [if_neg hShort]
  by_cases hTag : bytes.take Kind.tagLength = (kind R).tag
  · rw [if_neg (not_not_intro hTag)]
    have hSplit :
        ∀ body,
          (kind R).tag ++ body = bytes ↔
            bytes.drop Kind.tagLength = body := by
      intro body
      conv_lhs =>
        rw [← List.take_append_drop Kind.tagLength bytes,
          hTag]
      rw [List.append_cancel_left_eq, eq_comm]
    simp only [hSplit, exists_and_left, exists_eq_left']
    cases hRead :
        (layout key : Codec (R κ)).decode
          (bytes.drop Kind.tagLength) with
    | none => simp
    | some p => simp [Prod.ext_iff]
  · rw [if_pos hTag]
    constructor
    · intro hEq
      cases hEq
    · intro hSteps
      rcases hSteps with ⟨body, rest, rfl, -⟩
      rw [List.take_left' (Kind.length_tag _)] at hTag
      exact absurd rfl hTag

/-
  Behind a faithful layout, a record that fits is read from
  its own bytes, whatever follows them, and from no others.
-/
theorem ofBytes_eq_ok_iff
    {fits : R κ → Prop}
    (hLayout : (layout key).Faithful fits)
    {r : R κ} :
    ofBytes R key bytes = .ok r ↔
      fits r ∧ toBytes key r <+: bytes := by
  rw [ofBytes_eq_ok_iff_decode]
  simp only [hLayout _ _ _]
  constructor
  · intro hSteps
    rcases hSteps with ⟨_, rest, rfl, hFits, rfl⟩
    exact ⟨hFits, rest, List.append_assoc _ _ _⟩
  · intro hSteps
    rcases hSteps with ⟨hFits, rest, rfl⟩
    exact
      ⟨_, rest, (List.append_assoc _ _ _).symm, hFits, rfl⟩

/- Bytes behind another tag are not read. -/
theorem ofBytes_of_other_tag
    {other : Kind}
    (hOther : kind R ≠ other)
    (body : List UInt8) :
    ofBytes R key (other.tag ++ body) =
      .error .otherTag := by
  have hLong :
      ¬ (other.tag ++ body).length < Kind.tagLength := by
    rw [List.length_append, Kind.length_tag]
    omega
  have hTag : other.tag ≠ (kind R).tag :=
    fun hSame => hOther (Kind.tag_injective.mp hSame).symm
  unfold ofBytes
  rw [if_neg hLong, List.take_left' (Kind.length_tag _),
    if_pos hTag]

end Stored

------------------------------------------------------------
-- Accounts of a Kind
------------------------------------------------------------

namespace State

variable {κ : Type}

/- Read an account of the expected kind. -/
def ofBytesAs
    (key : Codec κ)
    (kind : Kind)
    (bytes : List UInt8) : Except Unreadable (State κ) :=
  match kind with
  | .manager =>
      .manager <$> Stored.ofBytes Manager key bytes
  | .ledger =>
      .ledger <$> Stored.ofBytes Ledger key bytes
  | .shareVault =>
      .shareVault <$> Stored.ofBytes ShareVault key bytes
  | .gauge =>
      .gauge <$> Stored.ofBytes Gauge key bytes
  | .forwarder =>
      .forwarder <$> Stored.ofBytes Forwarder key bytes
  | .relayer =>
      .relayer <$> Stored.ofBytes RelayerAccount key bytes

/- The list of an account is shorter than 2 ^ 32. -/
def Fits : State κ → Prop
  | .manager _ => True
  | .ledger l => l.entries.length < 2 ^ 32
  | .shareVault v => v.holdings.length < 2 ^ 32
  | .gauge g => g.accruals.length < 2 ^ 32
  | .forwarder f => f.received.length < 2 ^ 32
  | .relayer _ => True

end State

/-
  Records whose layout is faithful, and whose bytes are those
  of the account that they fill.
-/
class LawfulLayout (R : Type → Type) [Stored R] : Prop where
  faithful
    {κ : Type}
    {key : Codec κ}
    (hKey : key.Faithful fun _ => True) :
    (Stored.layout key).Faithful fun r : R κ =>
      (Stored.wrap r).Fits
  toBytes_wrap
    {κ : Type}
    (key : Codec κ)
    (r : R κ) :
    (Stored.wrap r).toBytes key = Stored.toBytes key r
  ofBytesAs_kind
    {κ : Type}
    (key : Codec κ)
    (bytes : List UInt8) :
    State.ofBytesAs key (Stored.kind R) bytes =
      Stored.wrap <$> Stored.ofBytes R key bytes
  kind_eq_iff
    {κ : Type}
    {st : State κ} :
    st.kind = Stored.kind R ↔ ∃ r : R κ, Stored.wrap r = st

instance : LawfulLayout Manager where
  faithful := Wire.faithful_manager
  toBytes_wrap _ _ := rfl
  ofBytesAs_kind _ _ := rfl
  kind_eq_iff {_ st} := by
    cases st <;> simp [State.kind, Stored.kind, Stored.wrap]

instance : LawfulLayout Ledger where
  faithful := Wire.faithful_ledger
  toBytes_wrap _ _ := rfl
  ofBytesAs_kind _ _ := rfl
  kind_eq_iff {_ st} := by
    cases st <;> simp [State.kind, Stored.kind, Stored.wrap]

instance : LawfulLayout ShareVault where
  faithful := Wire.faithful_shareVault
  toBytes_wrap _ _ := rfl
  ofBytesAs_kind _ _ := rfl
  kind_eq_iff {_ st} := by
    cases st <;> simp [State.kind, Stored.kind, Stored.wrap]

instance : LawfulLayout Gauge where
  faithful := Wire.faithful_gauge
  toBytes_wrap _ _ := rfl
  ofBytesAs_kind _ _ := rfl
  kind_eq_iff {_ st} := by
    cases st <;> simp [State.kind, Stored.kind, Stored.wrap]

instance : LawfulLayout Forwarder where
  faithful := Wire.faithful_forwarder
  toBytes_wrap _ _ := rfl
  ofBytesAs_kind _ _ := rfl
  kind_eq_iff {_ st} := by
    cases st <;> simp [State.kind, Stored.kind, Stored.wrap]

instance : LawfulLayout RelayerAccount where
  faithful := Wire.faithful_relayer
  toBytes_wrap _ _ := rfl
  ofBytesAs_kind _ _ := rfl
  kind_eq_iff {_ st} := by
    cases st <;> simp [State.kind, Stored.kind, Stored.wrap]

/- What holds of the kinds of all records holds of all. -/
theorem Kind.of_records
    {motive : Kind → Prop}
    (hRecords :
      ∀ (R : Type → Type) [Stored R] [LawfulLayout R],
        motive (Stored.kind R))
    (kind : Kind) :
    motive kind := by
  cases kind with
  | manager => exact hRecords Manager
  | ledger => exact hRecords Ledger
  | shareVault => exact hRecords ShareVault
  | gauge => exact hRecords Gauge
  | forwarder => exact hRecords Forwarder
  | relayer => exact hRecords RelayerAccount

namespace State

variable {κ : Type} {key : Codec κ}
variable {bytes : List UInt8}
variable {kind : Kind} {st : State κ}

/-
  An account is read as a kind if and only if it is of that
  kind, fits, and stands at the beginning of the bytes.
-/
theorem ofBytesAs_eq_ok_iff
    (hKey : key.Faithful fun _ => True) :
    ofBytesAs key kind bytes = .ok st ↔
      st.kind = kind ∧ st.Fits ∧
        st.toBytes key <+: bytes := by
  cases kind using Kind.of_records with
  | hRecords R =>
      have hLayout := LawfulLayout.faithful (R := R) hKey
      rw [LawfulLayout.ofBytesAs_kind,
        Except.map_eq_ok_iff, LawfulLayout.kind_eq_iff]
      simp only [Stored.ofBytes_eq_ok_iff hLayout,
        ← LawfulLayout.toBytes_wrap]
      constructor
      · intro hSteps
        rcases hSteps with ⟨r, ⟨hFits, hBytes⟩, rfl⟩
        exact ⟨⟨r, rfl⟩, hFits, hBytes⟩
      · intro hSteps
        rcases hSteps with ⟨⟨r, rfl⟩, hFits, hBytes⟩
        exact ⟨r, ⟨hFits, hBytes⟩, rfl⟩

/- Behind another tag there is no account of a kind. -/
theorem ofBytesAs_of_other_tag
    {other : Kind}
    (hOther : kind ≠ other)
    (body : List UInt8) :
    ofBytesAs key kind (other.tag ++ body) =
      .error .otherTag := by
  cases kind using Kind.of_records with
  | hRecords R =>
      rw [LawfulLayout.ofBytesAs_kind,
        Stored.ofBytes_of_other_tag hOther]
      rfl

/- The bytes of an account are read as no other kind. -/
theorem ofBytesAs_of_ne
    (hOther : kind ≠ st.kind)
    (rest : List UInt8) :
    ofBytesAs key kind (st.toBytes key ++ rest) =
      .error .otherTag := by
  have hTag :
      ∃ body, st.toBytes key = st.kind.tag ++ body := by
    cases st <;> exact ⟨_, rfl⟩
  rcases hTag with ⟨body, hBytes⟩
  rw [hBytes, List.append_assoc]
  exact ofBytesAs_of_other_tag hOther (body ++ rest)

/- Reading any kind tries one kind after another. -/
private theorem ofBytes?_eq_orElse :
    ofBytes? key bytes =
      ((ofBytesAs key .manager bytes).toOption <|>
        (ofBytesAs key .ledger bytes).toOption <|>
        (ofBytesAs key .shareVault bytes).toOption <|>
        (ofBytesAs key .gauge bytes).toOption <|>
        (ofBytesAs key .forwarder bytes).toOption <|>
        (ofBytesAs key .relayer bytes).toOption) := by
  have hMap :
      ∀ (R : Type → Type) [Stored R] [LawfulLayout R],
        (Stored.ofBytes R key bytes).toOption.map Stored.wrap =
          (ofBytesAs key (Stored.kind R) bytes).toOption := by
    intro R _ _
    rw [LawfulLayout.ofBytesAs_kind]
    cases Stored.ofBytes R key bytes <;> rfl
  simp only [ofBytes?, hMap]
  rfl

/- Only the kind that the tag names can be read. -/
theorem ofBytes?_of_tag
    (kind : Kind)
    (body : List UInt8) :
    ofBytes? key (kind.tag ++ body) =
      (ofBytesAs key kind (kind.tag ++ body)).toOption := by
  cases kind <;>
    simp (disch := decide) [ofBytes?_eq_orElse,
      ofBytesAs_of_other_tag, Except.toOption]

/- A record that is read is the state that is read. -/
theorem ofBytes?_of_ofBytes
    {R : Type → Type} [Stored R] [LawfulLayout R]
    {r : R κ}
    (hRead : Stored.ofBytes R key bytes = .ok r) :
    ofBytes? key bytes = some (Stored.wrap r) := by
  rcases Stored.ofBytes_eq_ok_iff_decode.mp hRead with
    ⟨body, rest, rfl, -⟩
  rw [ofBytes?_of_tag, LawfulLayout.ofBytesAs_kind, hRead]
  rfl

end State

------------------------------------------------------------
-- Values and Bytes
------------------------------------------------------------

namespace Wire

/-
  Over raw keys, bytes and values determine each other.  A
  record is read from its own bytes and from no others; an
  account is read from its own bytes, whatever follows them,
  and as its own kind only.
-/
theorem bytes_determine_values :
    (∀ (p : Part) (bytes : List UInt8) (x : p.Value Key),
      (p.layout Codec.key).decodeAll bytes = some x ↔
        p.Fits x ∧ (p.layout Codec.key).encode x = bytes) ∧
    (∀ (kind : Kind) (bytes : List UInt8) (st : State Key),
      State.ofBytesAs Codec.key kind bytes = .ok st ↔
        st.kind = kind ∧ st.Fits ∧
          st.toBytes Codec.key <+: bytes) ∧
    (∀ (kind : Kind) (st : State Key) (rest : List UInt8),
      kind ≠ st.kind →
        ∃ e,
          State.ofBytesAs Codec.key kind
              (st.toBytes Codec.key ++ rest) = .error e ∧
            (Refusal.ofUnreadable e).name =
              "AccountDiscriminatorMismatch") := by
  have hKey := Codec.faithful_key
  refine ⟨?_, ?_, ?_⟩
  · intro p bytes x
    exact (p.faithful hKey).decodeAll_eq_some_iff
  · intro kind bytes st
    exact State.ofBytesAs_eq_ok_iff hKey
  · intro kind st rest hOther
    exact
      ⟨.otherTag, State.ofBytesAs_of_ne hOther rest, rfl⟩

end Wire

end YieldManager
