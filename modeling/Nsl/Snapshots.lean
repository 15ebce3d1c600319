import Nsl.Audit
import Nsl.Base.Cells
/-!
# Snapshots — the protected store

`ProtectedSnapshotStore` (`protected_snapshots.py`) among the objects of its process: the callers change the objects they
have between their calls. A value of a protected classification is held sealed, any other in an object of the store's own.
-/
namespace Nsl

open Stateful
open Calendar (DateTime)

/-- What the store asks of a value: `value_hash`, and `None` among them. -/
class SnapshotValue (α : Type) where
  hash : α → Except Exn String
  null : α

section Snapshots

variable [Platform] {α : Type} [SnapshotValue α]

/-! ## What the store holds -/

/-- `PROTECTED_CLASSIFICATIONS` -/
def DataClassification.isProtected : DataClassification → Bool
  | .confidential | .restricted => true
  | _                           => false

structure ProtectedSnapshotBlob where
  ciphertext : List UInt8
  algorithm  : String
  keyId      : String
  sealed     : ciphertext ≠ []
  named      : Text.isBlank algorithm = false ∧ algorithm.toUpper ≠ "NONE"
  keyed      : Text.isBlank keyId = false

/-- `SnapshotProtectionPort`, which may answer each of its calls in its own way; `seal` may give another object. -/
structure SnapshotProtectionPort (α : Type) where
  seal_   : Nat → α → String → DataClassification → Except Exn (Option ProtectedSnapshotBlob)
  unseal_ : Nat → ProtectedSnapshotBlob → String → DataClassification → Except Exn α

/-- What `unseal` answers for a blob is the value that was sealed, for the same tenant and classification. -/
def SnapshotProtectionPort.Inverts (port : SnapshotProtectionPort α) : Prop :=
  ∀ n m value tenantId classification blob opened, port.seal_ n value tenantId classification = .ok (some blob) →
    port.unseal_ m blob tenantId classification = .ok opened → opened = value

/-- `_ProtectedStoredSnapshot` -/
structure ProtectedStoredSnapshot where
  tenantId       : String
  classification : DataClassification
  referenceHash  : String
  integrityHash  : String
  retentionDays  : Int
  expiresAt      : DateTime
  plaintext      : Option Nat
  protectedBlob  : Option ProtectedSnapshotBlob

/-- The reference to an item. -/
def ProtectedStoredSnapshot.reference (item : ProtectedStoredSnapshot) (snapshotId : String) : SnapshotRef :=
  ⟨snapshotId, item.tenantId, item.classification, item.referenceHash, some item.expiresAt.isoformat⟩

def snapshotName (n : Nat) : String := "protected-snapshot-" ++ Text.zeroPad 6 n

omit [Platform] [SnapshotValue α] in
theorem snapshotName_injective {m n : Nat} (h : snapshotName m = snapshotName n) : m = n :=
  Text.zeroPad_injective 6 (String.append_right_inj _ |>.1 h)

/-- The objects of the process, those the callers have, and the store with the calls it made of its port. -/
structure SnapshotWorld (α : Type) where
  objects   : Cells α
  callers   : List Nat
  items     : Dict ProtectedStoredSnapshot
  counter   : Nat
  portCalls : Nat

abbrev SnapshotRun (α : Type) := Run (SnapshotWorld α) Exn

/-! ## The calls -/

/-- `_now`, of what the clock gives. -/
def snapshotNow : Option DateTime → Except Exn DateTime
  | none   => .error (.value "snapshot clock must return a timezone-aware datetime")
  | some t => if t.offset.isNone then .error (.value "snapshot clock must return a timezone-aware datetime") else .ok t

/-- When a snapshot put now expires. -/
def snapshotExpiry (reading : Option DateTime) (retentionDays : Int) : Except Exn DateTime := do
  let now ← snapshotNow reading
  match now.plusDays retentionDays.toNat with
  | none   => .error (.arithmetic "date value out of range")
  | some t => .ok t

/-- The arguments of `put`; `object` is the one that holds the value. -/
structure SnapshotPut (α : Type) where
  tenantId       : String
  object         : Nat
  classification : DataClassification
  retentionDays  : Int
  hashMaterial   : Option α

/-- A new object, that holds the value. -/
def newObject (value : α) : SnapshotRun α Nat := do
  let c ← Run.look (·.objects.next)
  Run.write (fun w => { w with objects := w.objects.create value })
  Run.done c

/-- The number of the next call of the port. -/
def nextPortCall : SnapshotRun α Nat := do
  let n ← Run.look (·.portCalls)
  Run.write (fun w => { w with portCalls := w.portCalls + 1 })
  Run.done n

section Store

variable (port : SnapshotProtectionPort α) (reading : Option DateTime)

/-- What `put` holds of the value: an object of its own, or what the port sealed it to. -/
def holdValue (p : SnapshotPut α) (value : α) : SnapshotRun α (Option Nat × Option ProtectedSnapshotBlob) :=
  if p.classification.isProtected then do
    let n ← nextPortCall
    match port.seal_ n value p.tenantId p.classification with
    | .error e        =>
      if e.isException then Run.fail (.other "failed to protect snapshot") else Run.fail e
    | .ok none        => Run.fail (.other "snapshot protector returned an invalid protected blob")
    | .ok (some blob) => Run.done (none, some blob)
  else do
    let c ← newObject value
    Run.done (some c, none)

/-- The item of a value that is held. -/
def storedSnapshot (p : SnapshotPut α) (value : α) (held : Option Nat × Option ProtectedSnapshotBlob) :
    Except Exn ProtectedStoredSnapshot := do
  let expiresAt ← snapshotExpiry reading p.retentionDays
  let referenceHash ← SnapshotValue.hash (p.hashMaterial.getD value)
  let integrityHash ← SnapshotValue.hash value
  return ⟨p.tenantId, p.classification, referenceHash, integrityHash, p.retentionDays, expiresAt, held.1, held.2⟩

/-- `put` -/
def putProtected (p : SnapshotPut α) : SnapshotRun α SnapshotRef :=
  if Text.isBlank p.tenantId then Run.fail (.value "snapshot tenant_id must be non-empty")
  else if p.retentionDays ≤ 0 then Run.fail (.value "snapshot retention_days must be positive")
  else do
    let value ← Run.look (·.objects.content p.object)
    let held ← holdValue port p value
    Run.write (fun w => { w with counter := w.counter + 1 })
    let snapshotId ← Run.look (fun w => snapshotName w.counter)
    let item ← Run.ofExcept (storedSnapshot reading p value held)
    Run.write (fun w => { w with items := w.items.set snapshotId item })
    Run.done (item.reference snapshotId)

/-- `_validate_reference` -/
def validateReference (ref : SnapshotRef) (item : ProtectedStoredSnapshot) : Except Exn Unit :=
  if ref.classification ≠ item.classification ∨ ref.valueHash ≠ item.referenceHash ∨
      ref.expiresAt ≠ some item.expiresAt.isoformat then
    .error (.other "snapshot reference metadata mismatch")
  else .ok ()

/-- What `get` and `delete` ask before they look at the time. -/
def accessSnapshot (scope : String) (ref : SnapshotRef) (principal : ExecutionPrincipal) :
    SnapshotRun α ProtectedStoredSnapshot := do
  Run.ofExcept (principal.validate true)
  if scope ∉ principal.scopes then Run.fail (.permission (scope ++ " scope is required"))
  else do
    match ← Run.look (·.items.get? ref.snapshotId) with
    | none      => Run.fail (.lookup ("snapshot not found: " ++ ref.snapshotId))
    | some item =>
      if item.tenantId ≠ principal.tenantId ∨ ref.tenantId ≠ principal.tenantId then
        Run.fail (.permission "cross-tenant snapshot access is forbidden")
      else do
        Run.ofExcept (validateReference ref item)
        Run.done item

def removeSnapshot (snapshotId : String) : SnapshotRun α Unit :=
  Run.write (fun w => { w with items := w.items.erase snapshotId })

/-- What `get` gives of an item: a new object. -/
def openSnapshot (item : ProtectedStoredSnapshot) : SnapshotRun α Nat :=
  if item.classification.isProtected then
    match item.protectedBlob, item.plaintext with
    | some blob, none => do
      let n ← nextPortCall
      match port.unseal_ n blob item.tenantId item.classification with
      | .error e   =>
        if e.isException then Run.fail (.other "failed to unprotect snapshot") else Run.fail e
      | .ok opened => newObject opened
    | _, _            => Run.fail (.other "protected snapshot storage invariant failed")
  else
    match item.protectedBlob, item.plaintext with
    | some _, _    => Run.fail (.other "plaintext snapshot storage invariant failed")
    | none, some c => do
      let value ← Run.look (·.objects.content c)
      newObject value
    | none, none   => newObject SnapshotValue.null

/-- `get`: the object it returns is then one of the callers'. -/
def getProtected (ref : SnapshotRef) (principal : ExecutionPrincipal) : SnapshotRun α Nat := do
  let item ← accessSnapshot "nsl:replay:read" ref principal
  let now ← Run.ofExcept (snapshotNow reading)
  if item.expiresAt.instant ≤ now.instant then do
    removeSnapshot ref.snapshotId
    Run.fail (.lookup ("snapshot expired: " ++ ref.snapshotId))
  else do
    let c ← openSnapshot port item
    let value ← Run.look (·.objects.content c)
    let hash ← Run.ofExcept (SnapshotValue.hash value)
    if hash ≠ item.integrityHash then Run.fail (.other "snapshot plaintext integrity mismatch")
    else do
      Run.write (fun w => { w with callers := c :: w.callers })
      Run.done c

/-- `delete` -/
def deleteProtected (ref : SnapshotRef) (principal : ExecutionPrincipal) : SnapshotRun α Unit := do
  let _ ← accessSnapshot "nsl:snapshot:delete" ref principal
  removeSnapshot ref.snapshotId

/-- The snapshots that are expired at an instant. -/
def expiredSnapshots (now : DateTime) (items : Dict ProtectedStoredSnapshot) : List String :=
  (items.entries.filter (fun e => e.2.expiresAt.instant ≤ now.instant)).map Prod.fst

/-- `purge_expired` -/
def purgeExpired : SnapshotRun α Nat := do
  let now ← Run.ofExcept (snapshotNow reading)
  let expired ← Run.look (fun w => expiredSnapshots now w.items)
  Run.write (fun w => { w with items := expired.foldl Dict.erase w.items })
  Run.done expired.length

/-! ## What each call does -/

/-- A step that leaves the items and the callers' objects as they are. -/
structure Frame (w w' : SnapshotWorld α) : Prop where
  objects : w.objects.Extends w'.objects
  callers : w'.callers = w.callers
  items   : w'.items = w.items
  counter : w.counter ≤ w'.counter

/-- The callers' objects are made. -/
def Made (w : SnapshotWorld α) : Prop := ∀ c ∈ w.callers, c < w.objects.next

/-- How a value is held: what the port sealed it to, or an object no caller has. -/
inductive Holds (w : SnapshotWorld α) (p : SnapshotPut α) (value : α) : Option Nat × Option ProtectedSnapshotBlob → Prop
  | sealed {n : Nat} {blob : ProtectedSnapshotBlob} (hprotected : p.classification.isProtected = true)
      (hseal : port.seal_ n value p.tenantId p.classification = .ok (some blob)) : Holds w p value (none, some blob)
  | copied {c : Nat} (hprotected : p.classification.isProtected = false) (hmade : c < w.objects.next)
      (hown : c ∉ w.callers) (hcontent : w.objects.content c = value) : Holds w p value (some c, none)

/-- What `openSnapshot` finds in an item. -/
inductive Opens (w : SnapshotWorld α) (item : ProtectedStoredSnapshot) (value : α) : Prop
  | unsealed {n : Nat} {blob : ProtectedSnapshotBlob} (hblob : item.protectedBlob = some blob)
      (hunseal : port.unseal_ n blob item.tenantId item.classification = .ok value)
  | copied {c : Nat} (hblob : item.protectedBlob = none) (hplain : item.plaintext = some c)
      (hcontent : w.objects.content c = value)
  | nothing (hblob : item.protectedBlob = none) (hplain : item.plaintext = none)

/-- What `accessSnapshot` finds. -/
structure Accessible (scope : String) (ref : SnapshotRef) (principal : ExecutionPrincipal) (w : SnapshotWorld α)
    (item : ProtectedStoredSnapshot) : Prop where
  verified  : principal.validate true = .ok ()
  granted   : scope ∈ principal.scopes
  stored    : w.items.get? ref.snapshotId = some item
  tenant    : item.tenantId = principal.tenantId
  reference : ref = item.reference ref.snapshotId

omit [Platform] [SnapshotValue α] in
theorem Frame.refl (w : SnapshotWorld α) : Frame w w := ⟨.refl _, rfl, rfl, Nat.le_refl _⟩

omit [Platform] [SnapshotValue α] in
theorem Frame.trans {w w' w'' : SnapshotWorld α} (h : Frame w w') (h' : Frame w' w'') : Frame w w'' :=
  ⟨h.objects.trans h'.objects, h'.callers.trans h.callers, h'.items.trans h.items, Nat.le_trans h.counter h'.counter⟩

omit [Platform] [SnapshotValue α] in
theorem newObject_spec (value : α) (w : SnapshotWorld α) :
    Run.Triple (· = w) (newObject value) (fun c w' => Frame w w' ∧ w'.counter = w.counter ∧ c = w.objects.next ∧
      c < w'.objects.next ∧ w'.objects.content c = value) (fun _ w' => Frame w w') := by
  rintro _ rfl
  refine ⟨⟨Cells.create_extends _ _, rfl, rfl, Nat.le_refl _⟩, rfl, rfl, Nat.lt_succ_self _, ?_⟩
  exact Cells.create_content_new _ _

omit [Platform] [SnapshotValue α] in
theorem nextPortCall_spec (w : SnapshotWorld α) :
    Run.Triple (· = w) nextPortCall (fun _ w' => Frame w w' ∧ w'.counter = w.counter ∧ w'.objects = w.objects)
      (fun _ w' => Frame w w') := by
  rintro _ rfl
  exact ⟨⟨.refl _, rfl, rfl, Nat.le_refl _⟩, rfl, rfl⟩

omit [Platform] [SnapshotValue α] in
theorem holdValue_spec {w : SnapshotWorld α} (hmade : Made w) (p : SnapshotPut α) (value : α) :
    Run.Triple (· = w) (holdValue port p value)
      (fun held w' => Frame w w' ∧ w'.counter = w.counter ∧ Holds port w' p value held) (fun _ w' => Frame w w') := by
  unfold holdValue
  by_cases hprotected : p.classification.isProtected = true
  · rw [if_pos hprotected]
    refine (nextPortCall_spec w).andThen (fun n => ?_)
    cases hseal : port.seal_ n value p.tenantId p.classification with
    | error e =>
      by_cases he : e.isException = true
      · simp only [he, if_true]
        exact Run.triple_fail (fun _ h => h.1)
      · simp only [he, if_false, Bool.false_eq_true]
        exact Run.triple_fail (fun _ h => h.1)
    | ok sealing =>
      cases sealing with
      | none      => exact Run.triple_fail (fun _ h => h.1)
      | some blob => exact Run.triple_done (fun _ h => ⟨h.1, h.2.1, .sealed hprotected hseal⟩)
  · have hopen : p.classification.isProtected = false := by simpa using hprotected
    rw [if_neg hprotected]
    refine (newObject_spec value w).andThen (fun c => Run.triple_done (fun w' h => ?_))
    obtain ⟨hframe, hcounter, hc, hmade', hcontent⟩ := h
    refine ⟨hframe, hcounter, .copied hopen hmade' (fun hcaller => ?_) hcontent⟩
    rw [hframe.callers] at hcaller
    have hold := hmade c hcaller
    omega

omit [Platform] [SnapshotValue α] in
theorem Holds.frame {w w' : SnapshotWorld α} {p : SnapshotPut α} {value : α}
    {held : Option Nat × Option ProtectedSnapshotBlob} (h : Holds port w p value held) (hobjects : w.objects.Extends w'.objects)
    (hcallers : ∀ c ∈ w'.callers, c ∈ w.callers ∨ w.objects.next ≤ c) : Holds port w' p value held := by
  cases h with
  | sealed hprotected hseal => exact .sealed hprotected hseal
  | copied hprotected hmade hown hcontent =>
    refine .copied hprotected (Nat.lt_of_lt_of_le hmade hobjects.next) (fun hcaller => ?_) ?_
    · rcases hcallers _ hcaller with h | h
      · exact hown h
      · omega
    · rw [hobjects.content _ hmade, hcontent]

/-- What `put` did when it returned. -/
structure Stored (p : SnapshotPut α) (w : SnapshotWorld α) (ref : SnapshotRef) (w' : SnapshotWorld α)
    (item : ProtectedStoredSnapshot) : Prop where
  reference      : ref = item.reference (snapshotName (w.counter + 1))
  items          : w'.items = w.items.set (snapshotName (w.counter + 1)) item
  counter        : w'.counter = w.counter + 1
  callers        : w'.callers = w.callers
  objects        : w.objects.Extends w'.objects
  tenant         : item.tenantId = p.tenantId
  classification : item.classification = p.classification
  expiry         : snapshotExpiry reading p.retentionDays = .ok item.expiresAt
  referenceHash  : SnapshotValue.hash (p.hashMaterial.getD (w.objects.content p.object)) = .ok item.referenceHash
  integrity      : SnapshotValue.hash (w.objects.content p.object) = .ok item.integrityHash
  holds          : Holds port w' p (w.objects.content p.object) (item.plaintext, item.protectedBlob)

omit [Platform] in
theorem storedSnapshot_ok {p : SnapshotPut α} {value : α} {held : Option Nat × Option ProtectedSnapshotBlob}
    {item : ProtectedStoredSnapshot} (h : storedSnapshot reading p value held = .ok item) :
    item.tenantId = p.tenantId ∧ item.classification = p.classification ∧
      snapshotExpiry reading p.retentionDays = .ok item.expiresAt ∧
      SnapshotValue.hash (p.hashMaterial.getD value) = .ok item.referenceHash ∧
      SnapshotValue.hash value = .ok item.integrityHash ∧ (item.plaintext, item.protectedBlob) = held := by
  obtain ⟨expiresAt, hexpiry, h₁⟩ := bind_eq_ok h
  obtain ⟨referenceHash, hreference, h₂⟩ := bind_eq_ok h₁
  obtain ⟨integrityHash, hintegrity, h₃⟩ := bind_eq_ok h₂
  cases h₃
  exact ⟨rfl, rfl, hexpiry, hreference, hintegrity, rfl⟩

omit [Platform] in
theorem putProtected_spec {w : SnapshotWorld α} (hmade : Made w) (p : SnapshotPut α) :
    Run.Triple (· = w) (putProtected port reading p) (fun ref w' => ∃ item, Stored port reading p w ref w' item)
      (fun _ w' => Frame w w') := by
  have hsame : ∀ s, s = w → Frame w s := by
    rintro _ rfl
    exact Frame.refl _
  unfold putProtected
  by_cases htenant : Text.isBlank p.tenantId = true
  · rw [if_pos htenant]
    exact Run.triple_fail hsame
  rw [if_neg htenant]
  by_cases hdays : p.retentionDays ≤ 0
  · rw [if_pos hdays]
    exact Run.triple_fail hsame
  rw [if_neg hdays]
  refine Run.triple_look_andThen (Run.Triple.andThen (holdValue_spec port hmade p _) (fun held => ?_))
  refine Run.Triple.andThen (Q := fun _ w' => Frame w w' ∧ w'.counter = w.counter + 1 ∧
    Holds port w' p (w.objects.content p.object) held) (Run.triple_write (fun w' h => ?_)) (fun _ => ?_)
  · obtain ⟨hframe, hcounter, hholds⟩ := h
    refine ⟨⟨hframe.objects, hframe.callers, hframe.items, ?_⟩, ?_, ?_⟩
    · exact Nat.le_succ_of_le hframe.counter
    · rw [hcounter]
    · exact hholds.frame port (.refl _) (fun c hc => .inl hc)
  refine Run.triple_from (fun w₁ ⟨hframe, hcounter, hholds⟩ => Run.triple_look_andThen ?_)
  cases hitem : storedSnapshot reading p (w.objects.content p.object) held with
  | error e =>
    rintro _ rfl
    exact hframe
  | ok item =>
    rintro s rfl
    obtain ⟨htenant', hclass, hexpiry, hreference, hintegrity, hheld⟩ := storedSnapshot_ok reading hitem
    have hname : snapshotName s.counter = snapshotName (w.counter + 1) := by rw [hcounter]
    have hset : s.items.set (snapshotName s.counter) item = w.items.set (snapshotName (w.counter + 1)) item := by
      rw [hname, hframe.items]
    refine ⟨item, congrArg item.reference hname, hset, hcounter, hframe.callers, hframe.objects, htenant', hclass,
      hexpiry, hreference, hintegrity, ?_⟩
    rw [hheld]
    exact hholds.frame port (.refl _) (fun c hc => .inl hc)

omit [Platform] in
/-- A value the store can take is put: its tenant is named, the port seals it, it has a hash and the time an expiry. -/
theorem putProtected_gives {w : SnapshotWorld α} {p : SnapshotPut α} {expiresAt : DateTime} {referenceHash hash : String}
    (htenant : Text.isBlank p.tenantId = false) (hdays : 0 < p.retentionDays)
    (hprotected : p.classification.isProtected = true)
    (hseal : ∀ n, ∃ blob, port.seal_ n (w.objects.content p.object) p.tenantId p.classification = .ok (some blob))
    (hexpiry : snapshotExpiry reading p.retentionDays = .ok expiresAt)
    (hreference : SnapshotValue.hash (p.hashMaterial.getD (w.objects.content p.object)) = .ok referenceHash)
    (hhash : SnapshotValue.hash (w.objects.content p.object) = .ok hash) :
    ∃ ws w' ref, putProtected port reading p w = ⟨ws, w', .ok ref⟩ := by
  have hput : Run.Triple (· = w) (putProtected port reading p) (fun _ _ => True) (fun _ _ => False) := by
    unfold putProtected
    rw [if_neg (by simp [htenant]), if_neg (not_le_of_gt hdays)]
    refine Run.triple_look_andThen (Run.Triple.andThen (Q := fun _ _ => True) ?_ (fun held => ?_))
    · unfold holdValue
      rw [if_pos hprotected]
      refine Run.Triple.andThen (Q := fun _ _ => True) (fun _ _ => trivial) (fun n => ?_)
      obtain ⟨blob, hblob⟩ := hseal n
      rw [hblob]
      exact Run.triple_done (fun _ _ => trivial)
    · have hitem : storedSnapshot reading p (w.objects.content p.object) held =
          .ok ⟨p.tenantId, p.classification, referenceHash, hash, p.retentionDays, expiresAt, held.1, held.2⟩ := by
        unfold storedSnapshot
        rw [hexpiry, hreference, hhash]
        rfl
      rw [hitem]
      exact fun _ _ => trivial
  obtain ⟨ws, w', ref, hgives, -⟩ := hput.total rfl
  exact ⟨ws, w', ref, hgives⟩

/-! ### `get`, `delete` and `purge_expired` -/

omit [Platform] [SnapshotValue α] in
theorem validateReference_ok {ref : SnapshotRef} {item : ProtectedStoredSnapshot} (h : validateReference ref item = .ok ())
    (htenant : ref.tenantId = item.tenantId) : ref = item.reference ref.snapshotId := by
  unfold validateReference at h
  split at h
  · cases h
  · rename_i hno
    simp only [not_or, not_not] at hno
    obtain ⟨hclass, hhash, hexpires⟩ := hno
    cases ref
    simp only at hclass hhash hexpires htenant
    simp only [ProtectedStoredSnapshot.reference, hclass, hhash, hexpires, htenant]

omit [SnapshotValue α] in
theorem accessSnapshot_spec (scope : String) (ref : SnapshotRef) (principal : ExecutionPrincipal) (w : SnapshotWorld α) :
    Run.Triple (· = w) (accessSnapshot scope ref principal)
      (fun item w' => w' = w ∧ Accessible scope ref principal w item) (fun _ w' => w' = w) := by
  unfold accessSnapshot
  refine Run.Triple.andThen (Q := fun _ w' => w' = w ∧ principal.validate true = .ok ())
    (Run.triple_ofExcept (fun u hu w' hw' => ⟨hw', hu⟩) (fun _ _ _ hw' => hw')) (fun _ => ?_)
  by_cases hscope : scope ∈ principal.scopes
  · rw [if_neg (not_not_intro hscope)]
    refine Run.triple_from (fun w₁ ⟨hw₁, hverified⟩ => Run.triple_look_andThen ?_)
    subst hw₁
    cases hstored : w₁.items.get? ref.snapshotId with
    | none      => exact Run.triple_fail (fun _ h => h)
    | some item =>
      by_cases htenant : item.tenantId ≠ principal.tenantId ∨ ref.tenantId ≠ principal.tenantId
      · simp only [htenant, if_true]
        exact Run.triple_fail (fun _ h => h)
      · simp only [htenant, if_false]
        simp only [not_or, not_not] at htenant
        refine Run.Triple.andThen (Q := fun _ w' => w' = w₁ ∧ validateReference ref item = .ok ())
          (Run.triple_ofExcept (fun u hu w' hw' => ⟨hw', hu⟩) (fun _ _ _ hw' => hw')) (fun _ => ?_)
        refine Run.triple_done (fun w' h => ⟨h.1, hverified, hscope, hstored, htenant.1, ?_⟩)
        exact validateReference_ok h.2 (htenant.2.trans htenant.1.symm)
  · rw [if_pos hscope]
    exact Run.triple_fail (fun _ h => h.1)

omit [SnapshotValue α] in
/-- The checks of an accessible item pass. -/
theorem accessSnapshot_apply {scope : String} {ref : SnapshotRef} {principal : ExecutionPrincipal} {w : SnapshotWorld α}
    {item : ProtectedStoredSnapshot} (h : Accessible scope ref principal w item) :
    accessSnapshot scope ref principal w = ⟨[], w, .ok item⟩ := by
  have hreference : validateReference ref item = .ok () := by
    unfold validateReference
    rw [if_neg]
    rw [h.reference]
    simp [ProtectedStoredSnapshot.reference]
  have htenant : ¬ (item.tenantId ≠ principal.tenantId ∨ ref.tenantId ≠ principal.tenantId) := by
    have hr : ref.tenantId = item.tenantId := by
      rw [h.reference]
      rfl
    simp [hr, h.tenant]
  have hchecked : (Run.ofExcept (principal.validate true) : SnapshotRun α Unit) w = ⟨[], w, .ok ()⟩ := by
    rw [h.verified, Run.ofExcept_apply]
  have hvalid : (Run.ofExcept (validateReference ref item) : SnapshotRun α Unit) w = ⟨[], w, .ok ()⟩ := by
    rw [hreference, Run.ofExcept_apply]
  unfold accessSnapshot
  rw [Run.bind_eq, Run.andThen_ok hchecked, if_neg (not_not_intro h.granted), Run.bind_eq, Run.look_andThen, h.stored]
  simp only [htenant, if_false]
  rw [Run.bind_eq, Run.andThen_ok hvalid]
  rfl

omit [Platform] in
theorem openSnapshot_spec (item : ProtectedStoredSnapshot) (w : SnapshotWorld α) :
    Run.Triple (· = w) (openSnapshot port item) (fun c w' => Frame w w' ∧ w'.counter = w.counter ∧
      (w.objects.next ≤ c ∧ c < w'.objects.next) ∧ Opens port w item (w'.objects.content c)) (fun _ w' => Frame w w') := by
  have hsame : ∀ s, s = w → Frame w s := by
    rintro _ rfl
    exact Frame.refl _
  unfold openSnapshot
  by_cases hprotected : item.classification.isProtected = true
  · rw [if_pos hprotected]
    cases hblob : item.protectedBlob with
    | none      => exact Run.triple_fail hsame
    | some blob =>
      cases hplain : item.plaintext with
      | some c => exact Run.triple_fail hsame
      | none   =>
        refine (nextPortCall_spec w).andThen (fun n => ?_)
        cases hunseal : port.unseal_ n blob item.tenantId item.classification with
        | error e =>
          by_cases he : e.isException = true
          · simp only [he, if_true]
            exact Run.triple_fail (fun _ h => h.1)
          · simp only [he, if_false, Bool.false_eq_true]
            exact Run.triple_fail (fun _ h => h.1)
        | ok opened =>
          refine Run.triple_from (fun w₁ ⟨hframe, hcounter, hobjects⟩ => ?_)
          refine (newObject_spec opened w₁).conseq (fun _ h => h) ?_ (fun _ _ h => hframe.trans h)
          rintro c w' ⟨hframe', hcounter', hc, hmade, hcontent⟩
          refine ⟨hframe.trans hframe', hcounter'.trans hcounter, ⟨?_, hmade⟩, ?_⟩
          · rw [hc, hobjects]
          · rw [hcontent]
            exact .unsealed hblob hunseal
  · rw [if_neg hprotected]
    cases hblob : item.protectedBlob with
    | some blob => exact Run.triple_fail hsame
    | none      =>
      cases hplain : item.plaintext with
      | some c =>
        refine Run.triple_look_andThen ((newObject_spec _ w).conseq (fun _ h => h) ?_ (fun _ _ h => h))
        rintro c' w' ⟨hframe, hcounter, hc, hmade, hcontent⟩
        exact ⟨hframe, hcounter, ⟨hc.ge, hmade⟩, .copied hblob hplain hcontent.symm⟩
      | none   =>
        refine (newObject_spec _ w).conseq (fun _ h => h) ?_ (fun _ _ h => h)
        rintro c' w' ⟨hframe, hcounter, hc, hmade, -⟩
        exact ⟨hframe, hcounter, ⟨hc.ge, hmade⟩, .nothing hblob hplain⟩

/-- What `get` did when it returned an object. -/
structure Returned (ref : SnapshotRef) (principal : ExecutionPrincipal) (w : SnapshotWorld α) (c : Nat) (w' : SnapshotWorld α)
    (item : ProtectedStoredSnapshot) (now : DateTime) : Prop where
  access  : Accessible "nsl:replay:read" ref principal w item
  clock   : snapshotNow reading = .ok now
  inTime  : now.instant < item.expiresAt.instant
  opens   : Opens port w item (w'.objects.content c)
  objects : w.objects.Extends w'.objects
  made    : w.objects.next ≤ c ∧ c < w'.objects.next
  callers : w'.callers = c :: w.callers
  items   : w'.items = w.items
  counter : w'.counter = w.counter

theorem getProtected_spec (ref : SnapshotRef) (principal : ExecutionPrincipal) (w : SnapshotWorld α) :
    Run.Triple (· = w) (getProtected port reading ref principal)
      (fun c w' => ∃ item now, Returned port reading ref principal w c w' item now)
      (fun _ w' => Frame w w' ∨ w' = { w with items := w.items.erase ref.snapshotId }) := by
  unfold getProtected
  refine Run.Triple.andThen ((accessSnapshot_spec _ ref principal w).conseq (fun _ h => h) (fun _ _ h => h) ?_)
    (fun item => ?_)
  · rintro _ _ rfl
    exact .inl (.refl _)
  refine Run.triple_from (fun w₁ ⟨hw₁, haccess⟩ => ?_)
  subst hw₁
  cases hnow : snapshotNow reading with
  | error e =>
    rintro _ rfl
    exact .inl (.refl _)
  | ok now =>
    refine Run.Triple.andThen (Q := fun n w' => n = now ∧ w' = w₁) (Run.triple_done (fun _ h => ⟨rfl, h⟩)) (fun n => ?_)
    refine Run.triple_from (fun w₂ ⟨hn, hw₂⟩ => ?_)
    subst hn hw₂
    by_cases hexpired : item.expiresAt.instant ≤ n.instant
    · rw [if_pos hexpired]
      rintro _ rfl
      exact .inr rfl
    · rw [if_neg hexpired]
      refine Run.Triple.andThen ((openSnapshot_spec port item w₂).conseq (fun _ h => h) (fun _ _ h => h)
        (fun _ _ h => .inl h)) (fun c => ?_)
      refine Run.triple_from (fun w₃ ⟨hframe, hcounter, hmade, hopens⟩ => Run.triple_look_andThen ?_)
      cases hhash : SnapshotValue.hash (w₃.objects.content c) with
      | error e =>
        rintro _ rfl
        exact .inl hframe
      | ok hash =>
        refine Run.Triple.andThen (Q := fun h w' => h = hash ∧ w' = w₃) (Run.triple_done (fun _ h => ⟨rfl, h⟩))
          (fun h => ?_)
        by_cases hsame : h = item.integrityHash
        · rw [if_neg (not_not_intro hsame)]
          refine Run.Triple.andThen (Q := fun _ w' => w' = { w₃ with callers := c :: w₃.callers })
            (Run.triple_write (by rintro _ ⟨-, rfl⟩; rfl)) (fun _ => Run.triple_done ?_)
          rintro _ rfl
          refine ⟨item, n, haccess, hnow, lt_of_not_ge hexpired, hopens, hframe.objects, hmade, ?_, hframe.items, hcounter⟩
          show c :: w₃.callers = c :: w₂.callers
          rw [hframe.callers]
        · rw [if_pos hsame]
          refine Run.triple_fail ?_
          rintro _ ⟨-, rfl⟩
          exact .inl hframe

/-- A sealed item that is accessible and in time is given back, where the port opens it. -/
theorem getProtected_gives {ref : SnapshotRef} {principal : ExecutionPrincipal} {w : SnapshotWorld α}
    {item : ProtectedStoredSnapshot} {now : DateTime} {blob : ProtectedSnapshotBlob} {value : α}
    (h : Accessible "nsl:replay:read" ref principal w item) (hnow : snapshotNow reading = .ok now)
    (hinTime : now.instant < item.expiresAt.instant) (hprotected : item.classification.isProtected = true)
    (hplain : item.plaintext = none) (hblob : item.protectedBlob = some blob)
    (hunseal : ∀ n, port.unseal_ n blob item.tenantId item.classification = .ok value)
    (hhash : SnapshotValue.hash value = .ok item.integrityHash) :
    ∃ ws w' c, getProtected port reading ref principal w = ⟨ws, w', .ok c⟩ ∧ w'.objects.content c = value ∧
      w'.items = w.items := by
  have hopen : Run.Triple (· = w) (openSnapshot port item)
      (fun c w' => w'.objects.content c = value ∧ w'.items = w.items) (fun _ _ => False) := by
    unfold openSnapshot
    rw [if_pos hprotected, hblob, hplain]
    refine Run.Triple.andThen (Q := fun _ w' => w'.items = w.items) (by rintro _ rfl; rfl) (fun n => ?_)
    rw [hunseal n]
    intro w₁ hw₁
    exact ⟨Cells.create_content_new _ _, hw₁⟩
  have hget : Run.Triple (· = w) (getProtected port reading ref principal)
      (fun c w' => w'.objects.content c = value ∧ w'.items = w.items) (fun _ _ => False) := by
    unfold getProtected
    refine Run.Triple.andThen (Q := fun item' w' => item' = item ∧ w' = w) ?_ (fun item' => ?_)
    · rintro _ rfl
      rw [accessSnapshot_apply h]
      exact ⟨rfl, rfl⟩
    refine Run.triple_from (fun w₁ ⟨hitem', hw₁⟩ => ?_)
    subst hitem' hw₁
    rw [hnow]
    refine Run.Triple.andThen (Q := fun n w' => n = now ∧ w' = w₁) (Run.triple_done (fun _ h => ⟨rfl, h⟩)) (fun n => ?_)
    refine Run.triple_from (fun w₂ ⟨hn, hw₂⟩ => ?_)
    subst hn hw₂
    rw [if_neg (not_le_of_gt hinTime)]
    refine hopen.andThen (fun c => Run.triple_from (fun w₃ ⟨hcontent, hitems⟩ => Run.triple_look_andThen ?_))
    rw [hcontent, hhash]
    refine Run.Triple.andThen (Q := fun hash w' => hash = item'.integrityHash ∧ w' = w₃)
      (Run.triple_done (fun _ h => ⟨rfl, h⟩)) (fun hash => Run.triple_from (fun w₄ ⟨hsame, hw₄⟩ => ?_))
    subst hsame hw₄
    rw [if_neg (not_not_intro rfl)]
    rintro _ rfl
    exact ⟨hcontent, hitems⟩
  exact hget.total rfl

/-- An item found expired is removed. -/
theorem getProtected_expired {ref : SnapshotRef} {principal : ExecutionPrincipal} {w : SnapshotWorld α}
    {item : ProtectedStoredSnapshot} {now : DateTime} (h : Accessible "nsl:replay:read" ref principal w item)
    (hnow : snapshotNow reading = .ok now) (hexpired : item.expiresAt.instant ≤ now.instant) :
    (getProtected port reading ref principal w).final = { w with items := w.items.erase ref.snapshotId } := by
  have hclock : (Run.ofExcept (snapshotNow reading) : SnapshotRun α DateTime) w = ⟨[], w, .ok now⟩ := by
    rw [hnow, Run.ofExcept_apply]
  unfold getProtected
  rw [Run.bind_eq, Run.andThen_ok (accessSnapshot_apply h), Run.bind_eq, Run.andThen_ok hclock, if_pos hexpired]
  rfl

omit [SnapshotValue α] in
theorem deleteProtected_spec (ref : SnapshotRef) (principal : ExecutionPrincipal) (w : SnapshotWorld α) :
    Run.Triple (· = w) (deleteProtected ref principal)
      (fun _ w' => w' = { w with items := w.items.erase ref.snapshotId } ∧
        ∃ item, Accessible "nsl:snapshot:delete" ref principal w item) (fun _ w' => w' = w) := by
  unfold deleteProtected
  refine Run.Triple.andThen (accessSnapshot_spec _ ref principal w) (fun item => Run.triple_write ?_)
  rintro _ ⟨rfl, haccess⟩
  exact ⟨rfl, item, haccess⟩

omit [Platform] [SnapshotValue α] in
theorem purgeExpired_spec (w : SnapshotWorld α) :
    Run.Triple (· = w) (purgeExpired reading)
      (fun _ w' => ∃ now, snapshotNow reading = .ok now ∧
        w' = { w with items := (expiredSnapshots now w.items).foldl Dict.erase w.items }) (fun _ w' => w' = w) := by
  unfold purgeExpired
  cases hnow : snapshotNow reading with
  | error e =>
    rintro _ rfl
    rfl
  | ok now =>
    rintro _ rfl
    exact ⟨now, rfl, rfl⟩

end Store

/-! ## Any sequence of calls -/

/-- What happens next: a caller makes an object or changes one of its own, or calls the store. -/
inductive SnapshotCall (α : Type)
  | create (value : α)
  | change (object : Nat) (value : α)
  | put (p : SnapshotPut α)
  | get (ref : SnapshotRef) (principal : ExecutionPrincipal)
  | delete (ref : SnapshotRef) (principal : ExecutionPrincipal)
  | purgeExpired

/-- One step of a run, with what the clock gives then. -/
structure SnapshotMoment (α : Type) where
  before  : SnapshotWorld α
  reading : Option DateTime
  call    : SnapshotCall α

section History

variable (port : SnapshotProtectionPort α)

def SnapshotMoment.after (m : SnapshotMoment α) : SnapshotWorld α :=
  match m.call with
  | .create value         =>
    { m.before with objects := m.before.objects.create value, callers := m.before.objects.next :: m.before.callers }
  | .change object value  => { m.before with objects := m.before.objects.change object value }
  | .put p                => (putProtected port m.reading p m.before).final
  | .get ref principal    => (getProtected port m.reading ref principal m.before).final
  | .delete ref principal => (deleteProtected ref principal m.before).final
  | .purgeExpired         => (purgeExpired m.reading m.before).final

/-- A caller reaches no objects but its own. -/
def SnapshotMoment.Legal (m : SnapshotMoment α) : Prop :=
  match m.call with
  | .change object _ => object ∈ m.before.callers
  | .put p           => p.object ∈ m.before.callers
  | _                => True

/-- **The runs of the store**: it starts empty, among objects the callers have. -/
inductive SnapshotHistory : List (SnapshotMoment α) → SnapshotWorld α → Prop
  | start (w : SnapshotWorld α) (hitems : w.items = Dict.empty) (hcounter : w.counter = 0) (hmade : Made w) :
      SnapshotHistory [] w
  | step {past : List (SnapshotMoment α)} (m : SnapshotMoment α) (h : SnapshotHistory past m.before) (hlegal : m.Legal) :
      SnapshotHistory (past ++ [m]) (m.after port)

/-- At this moment a `put` returned the reference. -/
def SnapshotMoment.Issues (m : SnapshotMoment α) (p : SnapshotPut α) (ref : SnapshotRef) : Prop :=
  m.call = .put p ∧ (putProtected port m.reading p m.before).outcome = .ok ref

/-- At this moment a snapshot is deleted, purged or found expired. -/
inductive SnapshotMoment.Removes (m : SnapshotMoment α) (snapshotId : String) : Prop
  | deleted {ref : SnapshotRef} {principal : ExecutionPrincipal} (hcall : m.call = .delete ref principal)
      (hid : ref.snapshotId = snapshotId) (hok : (deleteProtected ref principal m.before).outcome = .ok ())
  | purged {item : ProtectedStoredSnapshot} {now : DateTime} (hcall : m.call = .purgeExpired)
      (hstored : m.before.items.get? snapshotId = some item) (hnow : snapshotNow m.reading = .ok now)
      (hexpired : item.expiresAt.instant ≤ now.instant)
  | expired {ref : SnapshotRef} {principal : ExecutionPrincipal} {item : ProtectedStoredSnapshot} {now : DateTime}
      (hcall : m.call = .get ref principal) (hid : ref.snapshotId = snapshotId)
      (haccess : Accessible "nsl:replay:read" ref principal m.before item) (hnow : snapshotNow m.reading = .ok now)
      (hexpired : item.expiresAt.instant ≤ now.instant)

omit [Platform] [SnapshotValue α] in
theorem mem_expiredSnapshots {now : DateTime} {items : Dict ProtectedStoredSnapshot} {snapshotId : String}
    {item : ProtectedStoredSnapshot} (h : items.get? snapshotId = some item)
    (hexpired : item.expiresAt.instant ≤ now.instant) : snapshotId ∈ expiredSnapshots now items := by
  unfold expiredSnapshots
  refine List.mem_map.2 ⟨(snapshotId, item), List.mem_filter.2 ⟨mem_of_lookup h, ?_⟩, rfl⟩
  simpa using hexpired

/-- What is removed was there, and is gone. -/
theorem SnapshotMoment.Removes.spec {m : SnapshotMoment α} {snapshotId : String} (h : m.Removes snapshotId) :
    (∃ item, m.before.items.get? snapshotId = some item) ∧ (m.after port).items.get? snapshotId = none := by
  cases h with
  | @deleted ref principal hcall hid hok =>
    have hspec := deleteProtected_spec ref principal m.before m.before rfl
    rw [hok] at hspec
    obtain ⟨hfinal, item, haccess⟩ := hspec
    subst hid
    refine ⟨⟨item, haccess.stored⟩, ?_⟩
    unfold after
    rw [hcall]
    simp only [hfinal, Dict.get?_erase, if_true]
  | @purged item now hcall hstored hnow hexpired =>
    refine ⟨⟨item, hstored⟩, ?_⟩
    have hspec := purgeExpired_spec m.reading m.before m.before rfl
    have houtcome : (Stateful.Run.ofExcept (snapshotNow m.reading) : SnapshotRun α DateTime) m.before =
        ⟨[], m.before, .ok now⟩ := by
      rw [hnow, Run.ofExcept_apply]
    have hfinal : (purgeExpired m.reading m.before).final =
        { m.before with items := (expiredSnapshots now m.before.items).foldl Dict.erase m.before.items } := by
      unfold Nsl.purgeExpired
      rw [Run.bind_eq, Run.andThen_ok houtcome]
      rfl
    unfold after
    rw [hcall]
    simp only [hfinal, Dict.get?_foldl_erase, mem_expiredSnapshots hstored hexpired, if_true]
  | @expired ref principal item now hcall hid haccess hnow hexpired =>
    subst hid
    refine ⟨⟨item, haccess.stored⟩, ?_⟩
    unfold after
    rw [hcall]
    simp only [getProtected_expired port m.reading haccess hnow hexpired, Dict.get?_erase, if_true]

/-- What every step keeps: what is held stays held, and no number is used again. -/
structure Carried (w w' : SnapshotWorld α) : Prop where
  holds   : ∀ p value held, Holds port w p value held → Holds port w' p value held
  made    : Made w → Made w'
  counter : w.counter ≤ w'.counter

omit [Platform] [SnapshotValue α] in
theorem Frame.carried {w w' : SnapshotWorld α} (h : Frame w w') : Carried port w w' := by
  refine ⟨fun p value held hholds => hholds.frame port h.objects (fun c hc => .inl (h.callers ▸ hc)), ?_, h.counter⟩
  intro hmade c hc
  rw [h.callers] at hc
  exact Nat.lt_of_lt_of_le (hmade c hc) h.objects.next

omit [Platform] [SnapshotValue α] in
/-- Items that are removed, or left. -/
theorem carried_items (w : SnapshotWorld α) (items : Dict ProtectedStoredSnapshot) :
    Carried port w { w with items := items } :=
  ⟨fun _ _ _ h => h.frame port (.refl _) (fun _ hc => .inl hc), fun h => h, Nat.le_refl _⟩

omit [Platform] [SnapshotValue α] in
/-- A new object of the callers'. -/
theorem carried_caller {w w' : SnapshotWorld α} {c : Nat} (hobjects : w.objects.Extends w'.objects)
    (hmade : w.objects.next ≤ c ∧ c < w'.objects.next) (hcallers : w'.callers = c :: w.callers)
    (hcounter : w.counter ≤ w'.counter) : Carried port w w' := by
  refine ⟨fun p value held hholds => hholds.frame port hobjects (fun c' hc' => ?_), fun hold c' hc' => ?_, hcounter⟩
  · rw [hcallers] at hc'
    rcases List.mem_cons.1 hc' with rfl | hc'
    · exact .inr hmade.1
    · exact .inl hc'
  · rw [hcallers] at hc'
    rcases List.mem_cons.1 hc' with rfl | hc'
    · exact hmade.2
    · exact Nat.lt_of_lt_of_le (hold c' hc') hobjects.next

omit [Platform] [SnapshotValue α] in
/-- A caller changes an object of its own. -/
theorem carried_change {w : SnapshotWorld α} {object : Nat} (hcaller : object ∈ w.callers) (value : α) :
    Carried port w { w with objects := w.objects.change object value } := by
  refine ⟨fun p v held hholds => ?_, fun hold => hold, Nat.le_refl _⟩
  cases hholds with
  | sealed hprotected hseal => exact .sealed hprotected hseal
  | @copied c hprotected hmade hown hcontent =>
    have hne : c ≠ object := by
      rintro rfl
      exact hown hcaller
    refine .copied hprotected hmade hown ?_
    rw [Cells.change_content_other value hne, hcontent]

omit [Platform] [SnapshotValue α] in
theorem erase_sub {items : Dict ProtectedStoredSnapshot} {removed snapshotId : String} {item : ProtectedStoredSnapshot}
    (h : (items.erase removed).get? snapshotId = some item) : items.get? snapshotId = some item := by
  rw [Dict.get?_erase] at h
  split at h
  · cases h
  · exact h

omit [Platform] [SnapshotValue α] in
theorem purge_sub {items : Dict ProtectedStoredSnapshot} {removed : List String} {snapshotId : String}
    {item : ProtectedStoredSnapshot} (h : (removed.foldl Dict.erase items).get? snapshotId = some item) :
    items.get? snapshotId = some item := by
  rw [Dict.get?_foldl_erase] at h
  split at h
  · cases h
  · exact h

/-- **What one step can do**: it stores the snapshot of a `put` that returned, or stores nothing new. -/
theorem SnapshotMoment.after_cases {m : SnapshotMoment α} (hlegal : m.Legal) (hmade : Made m.before) :
    Carried port m.before (m.after port) ∧
      ((∃ p ref item, m.Issues port p ref ∧ Stored port m.reading p m.before ref (m.after port) item) ∨
        (∀ p ref, ¬ m.Issues port p ref) ∧ ∀ snapshotId item, (m.after port).items.get? snapshotId = some item →
          m.before.items.get? snapshotId = some item) := by
  obtain ⟨w, reading, call⟩ := m
  have hother : (∀ p, call ≠ .put p) → ∀ p ref, ¬ SnapshotMoment.Issues port ⟨w, reading, call⟩ p ref := by
    rintro hno p ref ⟨hcall, -⟩
    exact hno p hcall
  cases call with
  | create value =>
    refine ⟨carried_caller port (Cells.create_extends _ _) ⟨Nat.le_refl _, Nat.lt_succ_self _⟩ rfl (Nat.le_refl _), .inr ?_⟩
    exact ⟨hother (by simp), fun _ _ h => h⟩
  | change object value =>
    exact ⟨carried_change port hlegal value, .inr ⟨hother (by simp), fun _ _ h => h⟩⟩
  | put p =>
    have hspec := putProtected_spec port reading hmade p w rfl
    cases houtcome : (putProtected port reading p w).outcome with
    | ok ref =>
      rw [houtcome] at hspec
      obtain ⟨item, hstored⟩ := hspec
      refine ⟨⟨fun q value held hholds => ?_, fun hold c hc => ?_, ?_⟩, .inl ⟨p, ref, item, ⟨rfl, houtcome⟩, hstored⟩⟩
      · exact hholds.frame port hstored.objects (fun c hc => .inl (hstored.callers ▸ hc))
      · have hc' : c ∈ w.callers := hstored.callers ▸ hc
        exact Nat.lt_of_lt_of_le (hold c hc') hstored.objects.next
      · exact Nat.le_of_lt (Nat.lt_of_lt_of_eq (Nat.lt_succ_self _) hstored.counter.symm)
    | error e =>
      rw [houtcome] at hspec
      refine ⟨Frame.carried port hspec, .inr ⟨?_, fun snapshotId item h => ?_⟩⟩
      · rintro q ref ⟨hcall, hok⟩
        cases hcall
        rw [houtcome] at hok
        cases hok
      · have hitems : (putProtected port reading p w).final.items = w.items := hspec.items
        rw [← hitems]
        exact h
  | get ref principal =>
    have hspec := getProtected_spec port reading ref principal w w rfl
    cases houtcome : (getProtected port reading ref principal w).outcome with
    | ok c =>
      rw [houtcome] at hspec
      obtain ⟨item, now, hreturned⟩ := hspec
      refine ⟨carried_caller port hreturned.objects hreturned.made hreturned.callers hreturned.counter.ge, .inr ?_⟩
      refine ⟨hother (by simp), fun snapshotId item h => ?_⟩
      have hitems : (getProtected port reading ref principal w).final.items = w.items := hreturned.items
      rw [← hitems]
      exact h
    | error e =>
      rw [houtcome] at hspec
      rcases hspec with hframe | hremoved
      · refine ⟨Frame.carried port hframe, .inr ⟨hother (by simp), fun snapshotId item h => ?_⟩⟩
        have hitems : (getProtected port reading ref principal w).final.items = w.items := hframe.items
        rw [← hitems]
        exact h
      · have hafter : SnapshotMoment.after port ⟨w, reading, .get ref principal⟩ =
            { w with items := w.items.erase ref.snapshotId } := hremoved
        rw [hafter]
        exact ⟨carried_items port w _, .inr ⟨hother (by simp), fun _ _ h => erase_sub h⟩⟩
  | delete ref principal =>
    have hspec := deleteProtected_spec ref principal w w rfl
    cases houtcome : (deleteProtected ref principal w).outcome with
    | ok u =>
      rw [houtcome] at hspec
      have hafter : SnapshotMoment.after port ⟨w, reading, .delete ref principal⟩ =
          { w with items := w.items.erase ref.snapshotId } := hspec.1
      rw [hafter]
      exact ⟨carried_items port w _, .inr ⟨hother (by simp), fun _ _ h => erase_sub h⟩⟩
    | error e =>
      rw [houtcome] at hspec
      have hafter : SnapshotMoment.after port ⟨w, reading, .delete ref principal⟩ = w := hspec
      rw [hafter]
      exact ⟨carried_items port w w.items, .inr ⟨hother (by simp), fun _ _ h => h⟩⟩
  | purgeExpired =>
    have hspec := purgeExpired_spec reading w w rfl
    cases houtcome : (purgeExpired reading w).outcome with
    | ok n =>
      rw [houtcome] at hspec
      obtain ⟨now, -, hfinal⟩ := hspec
      have hafter : SnapshotMoment.after port ⟨w, reading, .purgeExpired⟩ =
          { w with items := (expiredSnapshots now w.items).foldl Dict.erase w.items } := hfinal
      rw [hafter]
      exact ⟨carried_items port w _, .inr ⟨hother (by simp), fun _ _ h => purge_sub h⟩⟩
    | error e =>
      rw [houtcome] at hspec
      have hafter : SnapshotMoment.after port ⟨w, reading, .purgeExpired⟩ = w := hspec
      rw [hafter]
      exact ⟨carried_items port w w.items, .inr ⟨hother (by simp), fun _ _ h => h⟩⟩

/-! ## What a run keeps -/

/-- **The invariant of the store**: each item stands for one `put`, whose value it holds; what is removed is gone, under an
identifier that is not used again. -/
structure SnapshotInvariant (past : List (SnapshotMoment α)) (w : SnapshotWorld α) : Prop where
  made    : Made w
  backed  : ∀ snapshotId item, w.items.get? snapshotId = some item → ∃ m ∈ past, ∃ p,
    m.Issues port p (item.reference snapshotId) ∧ item.tenantId = p.tenantId ∧ item.classification = p.classification ∧
      snapshotExpiry m.reading p.retentionDays = .ok item.expiresAt ∧
      Holds port w p (m.before.objects.content p.object) (item.plaintext, item.protectedBlob)
  issued  : ∀ m ∈ past, ∀ p ref, m.Issues port p ref → ∃ n, n ≤ w.counter ∧ ref.snapshotId = snapshotName n
  once    : ∀ m ∈ past, ∀ m' ∈ past, ∀ p p' ref ref', m.Issues port p ref → m'.Issues port p' ref' →
    ref.snapshotId = ref'.snapshotId → m = m'
  removed : ∀ m ∈ past, ∀ snapshotId, m.Removes snapshotId →
    w.items.get? snapshotId = none ∧ ∃ n, n ≤ w.counter ∧ snapshotId = snapshotName n

theorem snapshotInvariant_start {w : SnapshotWorld α} (hitems : w.items = Dict.empty) (hmade : Made w) :
    SnapshotInvariant port [] w := by
  refine ⟨hmade, fun snapshotId item h => ?_, ?_, ?_, ?_⟩
  · rw [hitems] at h
    cases h
  · simp
  · simp
  · simp

omit [Platform] in
/-- One `put` returns one reference. -/
theorem SnapshotMoment.Issues.unique {m : SnapshotMoment α} {p p' : SnapshotPut α} {ref ref' : SnapshotRef}
    (h : m.Issues port p ref) (h' : m.Issues port p' ref') : p = p' ∧ ref = ref' := by
  obtain ⟨hcall, hok⟩ := h
  obtain ⟨hcall', hok'⟩ := h'
  cases hcall.symm.trans hcall'
  cases hok.symm.trans hok'
  exact ⟨rfl, rfl⟩

section Step

variable {past : List (SnapshotMoment α)} {m : SnapshotMoment α} (h : SnapshotInvariant port past m.before)
include h

/-- An item stands under a number that is used. -/
theorem SnapshotInvariant.numbered {snapshotId : String} {item : ProtectedStoredSnapshot}
    (hitem : m.before.items.get? snapshotId = some item) : ∃ n, n ≤ m.before.counter ∧ snapshotId = snapshotName n := by
  obtain ⟨m₀, hm₀, p, hissues, -⟩ := h.backed snapshotId item hitem
  exact h.issued m₀ hm₀ p _ hissues

/-- What this step removes is gone, under a number that is used. -/
theorem SnapshotInvariant.removed_now {snapshotId : String} (hremoves : m.Removes snapshotId)
    (hcounter : m.before.counter ≤ (m.after port).counter) :
    (m.after port).items.get? snapshotId = none ∧ ∃ n, n ≤ (m.after port).counter ∧ snapshotId = snapshotName n := by
  obtain ⟨⟨item, hitem⟩, hgone⟩ := hremoves.spec port
  obtain ⟨n, hn, hname⟩ := h.numbered port hitem
  exact ⟨hgone, n, hn.trans hcounter, hname⟩

/-- A step that stores nothing new. -/
theorem SnapshotInvariant.keep (hcarried : Carried port m.before (m.after port)) (hnew : ∀ p ref, ¬ m.Issues port p ref)
    (hsub : ∀ snapshotId item, (m.after port).items.get? snapshotId = some item →
      m.before.items.get? snapshotId = some item) : SnapshotInvariant port (past ++ [m]) (m.after port) := by
  have hold : ∀ m' ∈ past ++ [m], ∀ p ref, m'.Issues port p ref → m' ∈ past := by
    intro m' hm' p ref hissues
    rcases List.mem_append.1 hm' with hm' | hm'
    · exact hm'
    · rw [List.mem_singleton] at hm'
      subst hm'
      exact absurd hissues (hnew p ref)
  refine ⟨hcarried.made h.made, fun snapshotId item hitem => ?_, fun m' hm' p ref hissues => ?_,
    fun m₁ h₁ m₂ h₂ p₁ p₂ ref₁ ref₂ hi₁ hi₂ => ?_, fun m' hm' snapshotId hremoves => ?_⟩
  · obtain ⟨m₀, hm₀, p, hissues, htenant, hclass, hexpiry, hholds⟩ := h.backed snapshotId item (hsub _ _ hitem)
    exact ⟨m₀, List.mem_append_left _ hm₀, p, hissues, htenant, hclass, hexpiry, hcarried.holds _ _ _ hholds⟩
  · obtain ⟨n, hn, hname⟩ := h.issued m' (hold m' hm' p ref hissues) p ref hissues
    exact ⟨n, hn.trans hcarried.counter, hname⟩
  · exact h.once m₁ (hold m₁ h₁ p₁ ref₁ hi₁) m₂ (hold m₂ h₂ p₂ ref₂ hi₂) p₁ p₂ ref₁ ref₂ hi₁ hi₂
  · rcases List.mem_append.1 hm' with hm' | hm'
    · obtain ⟨hnone, n, hn, hname⟩ := h.removed m' hm' snapshotId hremoves
      refine ⟨?_, n, hn.trans hcarried.counter, hname⟩
      cases hafter : (m.after port).items.get? snapshotId with
      | none      => rfl
      | some item =>
        rw [hsub _ _ hafter] at hnone
        cases hnone
    · rw [List.mem_singleton] at hm'
      subst hm'
      exact h.removed_now port hremoves hcarried.counter

/-- A step that stores the snapshot of a `put`, under a new number. -/
theorem SnapshotInvariant.store {p : SnapshotPut α} {ref : SnapshotRef} {item : ProtectedStoredSnapshot}
    (hcarried : Carried port m.before (m.after port)) (hissues : m.Issues port p ref)
    (hstored : Stored port m.reading p m.before ref (m.after port) item) :
    SnapshotInvariant port (past ++ [m]) (m.after port) := by
  have hid : ref.snapshotId = snapshotName (m.before.counter + 1) := by
    rw [hstored.reference]
    rfl
  have hfresh : ∀ n, n ≤ m.before.counter → snapshotName n ≠ snapshotName (m.before.counter + 1) := by
    intro n hn hname
    have heq := snapshotName_injective hname
    omega
  have hnow : ∀ p' ref', m.Issues port p' ref' → ref'.snapshotId = snapshotName (m.before.counter + 1) := by
    intro p' ref' hissues'
    obtain ⟨-, rfl⟩ := hissues.unique port hissues'
    exact hid
  have hlast : ∀ m' ∈ past ++ [m], m' ∈ past ∨ m' = m := by
    intro m' hm'
    rcases List.mem_append.1 hm' with hm' | hm'
    · exact .inl hm'
    · exact .inr (List.mem_singleton.1 hm')
  refine ⟨hcarried.made h.made, fun snapshotId item' hitem' => ?_, fun m' hm' p' ref' hissues' => ?_,
    fun m₁ h₁ m₂ h₂ p₁ p₂ ref₁ ref₂ hi₁ hi₂ hsame => ?_, fun m' hm' snapshotId hremoves => ?_⟩
  · rw [hstored.items] at hitem'
    rcases Dict.get?_set_or hitem' with ⟨rfl, rfl⟩ | hold
    · refine ⟨m, List.mem_append_right _ (List.mem_singleton_self m), p, ?_, hstored.tenant, hstored.classification,
        hstored.expiry, hstored.holds⟩
      rw [← hstored.reference]
      exact hissues
    · obtain ⟨m₀, hm₀, p₀, hissues₀, htenant, hclass, hexpiry, hholds⟩ := h.backed snapshotId item' hold
      exact ⟨m₀, List.mem_append_left _ hm₀, p₀, hissues₀, htenant, hclass, hexpiry, hcarried.holds _ _ _ hholds⟩
  · rcases hlast m' hm' with hm' | rfl
    · obtain ⟨n, hn, hname⟩ := h.issued m' hm' p' ref' hissues'
      exact ⟨n, hn.trans hcarried.counter, hname⟩
    · exact ⟨m'.before.counter + 1, hstored.counter.ge, hnow p' ref' hissues'⟩
  · rcases hlast m₁ h₁ with hold₁ | hnew₁ <;> rcases hlast m₂ h₂ with hold₂ | hnew₂
    · exact h.once m₁ hold₁ m₂ hold₂ p₁ p₂ ref₁ ref₂ hi₁ hi₂ hsame
    · rw [hnew₂] at hi₂
      obtain ⟨n, hn, hname⟩ := h.issued m₁ hold₁ p₁ ref₁ hi₁
      rw [hname, hnow p₂ ref₂ hi₂] at hsame
      exact absurd hsame (hfresh n hn)
    · rw [hnew₁] at hi₁
      obtain ⟨n, hn, hname⟩ := h.issued m₂ hold₂ p₂ ref₂ hi₂
      rw [hname, hnow p₁ ref₁ hi₁] at hsame
      exact absurd hsame.symm (hfresh n hn)
    · rw [hnew₁, hnew₂]
  · rcases hlast m' hm' with hm' | rfl
    · obtain ⟨hnone, n, hn, hname⟩ := h.removed m' hm' snapshotId hremoves
      refine ⟨?_, n, hn.trans hcarried.counter, hname⟩
      rw [hstored.items, Dict.get?_set_other _ _ (hname ▸ hfresh n hn)]
      exact hnone
    · exact h.removed_now port hremoves hcarried.counter

end Step

theorem snapshotInvariant_step {past : List (SnapshotMoment α)} {m : SnapshotMoment α} (h : SnapshotInvariant port past m.before)
    (hlegal : m.Legal) : SnapshotInvariant port (past ++ [m]) (m.after port) := by
  obtain ⟨hcarried, hstep⟩ := m.after_cases port hlegal h.made
  rcases hstep with ⟨p, ref, item, hissues, hstored⟩ | ⟨hnew, hsub⟩
  · exact h.store port hcarried hissues hstored
  · exact h.keep port hcarried hnew hsub

/-- **Every run keeps the invariant.** -/
theorem SnapshotHistory.invariant {past : List (SnapshotMoment α)} {w : SnapshotWorld α} (h : SnapshotHistory port past w) :
    SnapshotInvariant port past w := by
  induction h with
  | start w hitems hcounter hmade => exact snapshotInvariant_start port hitems hmade
  | step m h hlegal ih            => exact snapshotInvariant_step port ih hlegal

/-! ## Isolation -/

omit [Platform] [SnapshotValue α] in
/-- What is opened is the value that was put. -/
theorem Opens.held {w : SnapshotWorld α} {p : SnapshotPut α} {item : ProtectedStoredSnapshot} {value opened : α}
    (hport : port.Inverts) (htenant : item.tenantId = p.tenantId) (hclass : item.classification = p.classification)
    (hholds : Holds port w p value (item.plaintext, item.protectedBlob)) (hopens : Opens port w item opened) :
    opened = value := by
  generalize hheld : (item.plaintext, item.protectedBlob) = held at hholds
  cases hholds with
  | @sealed n blob hprotected hseal =>
    obtain ⟨hplain, hblob⟩ := Prod.mk.inj hheld
    cases hopens with
    | @unsealed n' blob' hblob' hunseal =>
      cases hblob.symm.trans hblob'
      rw [htenant, hclass] at hunseal
      exact hport _ _ _ _ _ _ _ hseal hunseal
    | copied hblob' _ => cases hblob.symm.trans hblob'
    | nothing hblob' _ => cases hblob.symm.trans hblob'
  | @copied c hprotected hmade hown hcontent =>
    obtain ⟨hplain, hblob⟩ := Prod.mk.inj hheld
    cases hopens with
    | unsealed hblob' _ => cases hblob.symm.trans hblob'
    | copied _ hplain' hcontent' =>
      cases hplain.symm.trans hplain'
      exact hcontent'.symm.trans hcontent
    | nothing _ hplain' => cases hplain.symm.trans hplain'

/-- What an object that `get` returned shows: the principal may read it, the reference is the one a `put` of its tenant
returned, the snapshot is in time and was never removed, and the object holds the value that was put. -/
structure Isolated (past : List (SnapshotMoment α)) (w : SnapshotWorld α) (reading : Option DateTime) (ref : SnapshotRef)
    (principal : ExecutionPrincipal) (c : Nat) (m : SnapshotMoment α) (p : SnapshotPut α) : Prop where
  verified : principal.validate true = .ok ()
  granted  : "nsl:replay:read" ∈ principal.scopes
  put      : m ∈ past ∧ m.Issues port p ref
  only     : ∀ m' ∈ past, ∀ p' ref', m'.Issues port p' ref' → ref'.snapshotId = ref.snapshotId → m' = m
  tenant   : principal.tenantId = p.tenantId
  inTime   : ∃ now expiresAt, snapshotNow reading = .ok now ∧ snapshotExpiry m.reading p.retentionDays = .ok expiresAt ∧
    now.instant < expiresAt.instant
  value    : (getProtected port reading ref principal w).final.objects.content c = m.before.objects.content p.object
  present  : ∀ m' ∈ past, ¬ m'.Removes ref.snapshotId

/-- **Snapshots are isolated**: over every run of callers, `get` returns an object only to those who may read what was put,
and nothing protected is held but sealed. -/
theorem snapshots_isolated (hport : port.Inverts) {past : List (SnapshotMoment α)} {w : SnapshotWorld α}
    (h : SnapshotHistory port past w) :
    (∀ reading ref principal c, (getProtected port reading ref principal w).outcome = .ok c →
      ∃ m p, Isolated port past w reading ref principal c m p) ∧
    ∀ snapshotId item, w.items.get? snapshotId = some item → item.classification.isProtected = true →
      item.plaintext = none ∧ ∃ blob, item.protectedBlob = some blob := by
  have hinvariant := h.invariant
  refine ⟨fun reading ref principal c hok => ?_, fun snapshotId item hitem hprotected => ?_⟩
  · have hspec := getProtected_spec port reading ref principal w w rfl
    rw [hok] at hspec
    obtain ⟨item, now, hreturned⟩ := hspec
    have hstored := hreturned.access.stored
    obtain ⟨m, hm, p, hissues, htenant, hclass, hexpiry, hholds⟩ := hinvariant.backed ref.snapshotId item hstored
    rw [← hreturned.access.reference] at hissues
    refine ⟨m, p, hreturned.access.verified, hreturned.access.granted, ⟨hm, hissues⟩, fun m' hm' p' ref' hi' hsame => ?_,
      hreturned.access.tenant.symm.trans htenant, ⟨now, item.expiresAt, hreturned.clock, hexpiry, hreturned.inTime⟩, ?_,
      fun m' hm' hremoves => ?_⟩
    · exact hinvariant.once m' hm' m hm p' p ref' ref hi' hissues hsame
    · exact hreturned.opens.held port hport htenant hclass hholds
    · rw [(hinvariant.removed m' hm' _ hremoves).1] at hstored
      cases hstored
  · obtain ⟨m, hm, p, hissues, htenant, hclass, hexpiry, hholds⟩ := hinvariant.backed snapshotId item hitem
    generalize hheld : (item.plaintext, item.protectedBlob) = held at hholds
    cases hholds with
    | @sealed n blob _ _ =>
      obtain ⟨hplain, hblob⟩ := Prod.mk.inj hheld
      exact ⟨hplain, blob, hblob⟩
    | copied hopen _ _ _ =>
      rw [hclass, hopen] at hprotected
      cases hprotected

end History

end Snapshots

section Vault

instance [Platform] : SnapshotValue Value where
  hash := valueHash
  null := .null

/-- A port that takes one value. -/
def vaultBlob : ProtectedSnapshotBlob :=
  ⟨[1], "VAULT", "key", by decide, ⟨by decide +kernel, by decide +kernel⟩, by decide +kernel⟩

def vault : SnapshotProtectionPort Value where
  seal_ _ value _ _ := match value with
    | .bool true => .ok (some vaultBlob)
    | _          => .error (.other "unsupported value")
  unseal_ _ _ _ _   := .ok (.bool true)

theorem vault_inverts : vault.Inverts := by
  intro n m value tenantId classification blob opened hseal hunseal
  cases hunseal
  unfold vault at hseal
  dsimp only at hseal
  split at hseal
  · rfl
  · cases hseal

/-- A caller with one object, and an empty store. -/
def vaultWorld : SnapshotWorld Value := ⟨⟨fun _ => .bool true, 1⟩, [0], Dict.empty, 0, 0⟩

theorem utc_within : ∀ o, some (0 : Int) = some o → -86400000000 < o ∧ o < 86400000000 := by
  rintro _ ⟨⟩
  constructor <;> decide

def vaultTime : DateTime := ⟨⟨2026, 8, 1, by decide⟩, 12, 0, 0, 0, some 0, by decide, utc_within⟩

def vaultMoment : SnapshotMoment Value := ⟨vaultWorld, some vaultTime, .put ⟨"tenant", 0, .restricted, 30, none⟩⟩

section Ascii

attribute [local instance] Platform.ascii

theorem vault_isolated :
    (∀ reading ref principal c, (getProtected vault reading ref principal (vaultMoment.after vault)).outcome = .ok c →
      ∃ m p, Isolated vault [vaultMoment] (vaultMoment.after vault) reading ref principal c m p) ∧
    ∀ snapshotId item, (vaultMoment.after vault).items.get? snapshotId = some item →
      item.classification.isProtected = true → item.plaintext = none ∧ ∃ blob, item.protectedBlob = some blob :=
  snapshots_isolated vault vault_inverts
    (.step vaultMoment (.start vaultWorld rfl rfl (by simp [Made, vaultWorld])) (by simp [SnapshotMoment.Legal, vaultMoment, vaultWorld]))

end Ascii

end Vault
end Nsl
