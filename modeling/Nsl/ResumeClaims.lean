import Mathlib.Data.List.Induction
import Mathlib.Tactic.IntervalCases
import Nsl.Core
import Nsl.Base.JsonParse
/-!
# Resume claims — one consumer of a saved checkpoint

`FileControlledStatePort` (`cli_controlled.py`): `claim`, `release` and `consume` of one saved checkpoint over two files,
the claim and the mark that the checkpoint is consumed. Any number of processes call them, each with its own claim id and
one call at a time; the file operations of the calls interleave in any order and each of them is atomic. The history
keeps how every call ended, the latest first.
-/
namespace Nsl
namespace Claims

def CONTROLLED_DOCUMENT_VERSION : String := "1.0"

/-! ## The claim document -/

structure CheckpointIdentity where
  executionId       : String
  checkpointVersion : Int
  deriving DecidableEq

structure ClaimDocument where
  checkpoint : CheckpointIdentity
  claimId    : String
  deriving DecidableEq

def ClaimDocument.toData (d : ClaimDocument) : Json :=
  .obj [("schema_version", .str CONTROLLED_DOCUMENT_VERSION), ("execution_id", .str d.checkpoint.executionId),
    ("checkpoint_version", .int d.checkpoint.checkpointVersion), ("claim_id", .str d.claimId)]

/-- `canonical_json` of the document: what `claim` writes. -/
def ClaimDocument.text (d : ClaimDocument) : String := Json.dumps d.toData

def claimFields : List String := ["checkpoint_version", "claim_id", "execution_id", "schema_version"]

/-- A list of names as `sorted(...)` of them prints. -/
def namesText (names : List String) : String :=
  "[" ++ Text.join ", " ((names.insertionSort (· ≤ ·)).map (fun n => "'" ++ n ++ "'")) ++ "]"

/-- `_object(value, "$", fields)` -/
def exactObject (value : Json) (fields : List String) : Except Exn Json :=
  match value with
  | .obj entries =>
    let missing := fields.filter (· ∉ entries.map Prod.fst)
    let unexpected := (entries.map Prod.fst).filter (· ∉ fields)
    if missing ≠ [] then .error (.schema "$" ("missing fields: " ++ namesText missing))
    else if unexpected ≠ [] then .error (.schema "$" ("unexpected fields: " ++ namesText unexpected))
    else .ok value
  | _ => .error (.schema "$" "expected object")

def faultText : Json.Fault → String
  | .duplicate key  => "duplicate object field: " ++ key
  | .nonFinite text => "non-finite JSON number: " ++ text
  | _               => "invalid JSON"

/-- The checks `_validate_claim` makes of the text of the claim file. -/
def checkClaim (float : List Char → String) (expected : ClaimDocument) (text : String) : Except Exn Unit := do
  let value ← (Json.loads float text).mapError (fun fault => .schema "$" (faultText fault))
  let document ← exactObject value claimFields
  if document.sorted ≠ expected.toData.sorted then throw (.other "checkpoint claim ownership mismatch")

theorem ClaimDocument.printed (float : List Char → String) (d : ClaimDocument) : Json.Printed float d.toData := by
  refine ⟨?_, trivial, trivial, trivial, trivial, trivial⟩
  show List.Nodup ["schema_version", "execution_id", "checkpoint_version", "claim_id"]
  decide

/-- The document with its keys in order. -/
theorem ClaimDocument.sorted_toData (d : ClaimDocument) : d.toData.sorted =
    .obj [("checkpoint_version", .int d.checkpoint.checkpointVersion), ("claim_id", .str d.claimId),
      ("execution_id", .str d.checkpoint.executionId), ("schema_version", .str CONTROLLED_DOCUMENT_VERSION)] := by
  have h1 : "checkpoint_version" ≤ "claim_id" := by decide
  have h2 : ¬ "execution_id" ≤ "checkpoint_version" := by decide
  have h3 : ¬ "execution_id" ≤ "claim_id" := by decide
  have h4 : ¬ "schema_version" ≤ "checkpoint_version" := by decide
  have h5 : ¬ "schema_version" ≤ "claim_id" := by decide
  have h6 : ¬ "schema_version" ≤ "execution_id" := by decide
  simp only [toData, Json.sorted, Json.sortedFields, Json.sortKeys, List.insertionSort_cons, List.insertionSort_nil,
    List.orderedInsert_cons, List.orderedInsert_nil, Json.KeyLe, h1, h2, h3, h4, h5, h6, if_true, if_false]

theorem ClaimDocument.sorted_inj {d d' : ClaimDocument} (h : d.toData.sorted = d'.toData.sorted) : d = d' := by
  obtain ⟨⟨e, v⟩, c⟩ := d
  obtain ⟨⟨e', v'⟩, c'⟩ := d'
  simp only [ClaimDocument.sorted_toData, Json.obj.injEq, List.cons.injEq, Prod.mk.injEq, Json.int.injEq,
    Json.str.injEq] at h
  obtain ⟨⟨-, hv⟩, ⟨-, hc⟩, ⟨-, he⟩, -⟩ := h
  rw [hv, hc, he]

/-- **A claim file passes the check of its owner's document and of no other.** -/
theorem checkClaim_text (float : List Char → String) (d d' : ClaimDocument) :
    checkClaim float d d'.text = if d' = d then .ok () else .error (.other "checkpoint claim ownership mismatch") := by
  have hobject : exactObject d'.toData.sorted claimFields = .ok d'.toData.sorted := by
    rw [ClaimDocument.sorted_toData]
    rfl
  have htwice : d'.toData.sorted.sorted = d'.toData.sorted := by
    rw [ClaimDocument.sorted_toData]
    have h1 : "checkpoint_version" ≤ "claim_id" := by decide
    have h2 : "claim_id" ≤ "execution_id" := by decide
    have h3 : "execution_id" ≤ "schema_version" := by decide
    simp only [Json.sorted, Json.sortedFields, Json.sortKeys, List.insertionSort_cons, List.insertionSort_nil,
      List.orderedInsert_cons, List.orderedInsert_nil, Json.KeyLe, h1, h2, h3, if_true]
  unfold checkClaim ClaimDocument.text
  rw [Json.loads_dumps float (ClaimDocument.printed float d')]
  show (exactObject d'.toData.sorted claimFields >>= _) = _
  rw [hobject]
  by_cases hd : d' = d
  · subst hd
    simp [htwice, bind, Except.bind, pure, Except.pure]
  · have hne : d'.toData.sorted ≠ d.toData.sorted := fun h => hd (ClaimDocument.sorted_inj h)
    simp [htwice, hne, hd, bind, Except.bind, throw, throwThe, MonadExceptOf.throw]

theorem ClaimDocument.text_inj {d d' : ClaimDocument} (h : d.text = d'.text) : d = d' := by
  have hd := checkClaim_text String.ofList d' d
  rw [h, checkClaim_text, if_pos rfl] at hd
  by_contra hne
  rw [if_neg hne] at hd
  cases hd

/-! ## Calls -/

inductive Operation | claim | release | consume
  deriving DecidableEq

structure Call where
  operation  : Operation
  checkpoint : CheckpointIdentity
  deriving DecidableEq

/-- Where a process stands in its call: which file operation comes next. -/
inductive Phase
  | idle
  /-- read the checkpoint -/
  | claimRead (c : CheckpointIdentity)
  /-- does the consumed file exist? -/
  | claimTest (c : CheckpointIdentity)
  /-- exclusive creation of the claim file -/
  | claimCreate (c : CheckpointIdentity)
  /-- read the claim file -/
  | releaseRead (c : CheckpointIdentity)
  | releaseUnlink
  /-- read the claim file -/
  | consumeRead (c : CheckpointIdentity)
  /-- exclusive creation of the consumed file, with the bytes of the claim -/
  | consumeCreate (claim : String)
  | consumeUnlink
  deriving DecidableEq

def Call.start (c : Call) : Phase :=
  match c.operation with
  | .claim   => .claimRead c.checkpoint
  | .release => .releaseRead c.checkpoint
  | .consume => .consumeRead c.checkpoint

/-- One call that ended. -/
structure Ended (P : Type) where
  process   : P
  operation : Operation
  result    : Except Exn Unit

structure Site (P : Type) where
  claimFile    : Option String := none
  consumedFile : Option String := none
  phase        : P → Phase
  /-- the calls that ended, the latest first -/
  history      : List (Ended P)

/-- A saved checkpoint that nobody claimed yet. -/
def Site.saved (P : Type) : Site P := { phase := fun _ => .idle, history := [] }

section Protocol

variable {P : Type} [DecidableEq P] (float : List Char → String) (checkpoint : CheckpointIdentity) (claimId : P → String)

namespace Site

def goto (s : Site P) (p : P) (phase : Phase) : Site P := { s with phase := Function.update s.phase p phase }

/-- The call of a process ends. -/
def finish (s : Site P) (p : P) (operation : Operation) (result : Except Exn Unit) : Site P :=
  { s.goto p .idle with history := ⟨p, operation, result⟩ :: s.history }

theorem goto_phase (s : Site P) (p q : P) (phase : Phase) :
    (s.goto p phase).phase q = if q = p then phase else s.phase q := by
  by_cases hqp : q = p
  · subst hqp
    simp [goto]
  · simp [goto, hqp]

theorem finish_phase (s : Site P) (p q : P) (o : Operation) (r : Except Exn Unit) :
    (s.finish p o r).phase q = if q = p then .idle else s.phase q := goto_phase s p q .idle

/-- `_validate_claim`: the bytes of a claim file that is this process's own. -/
def validateClaim (s : Site P) (p : P) (c : CheckpointIdentity) : Except Exn String :=
  match s.claimFile with
  | none      => .error (.other "checkpoint claim is not active")
  | some text => (checkClaim float ⟨c, claimId p⟩ text).map (fun _ => text)

/-- `claim_path.unlink()`, the last operation of a call. -/
def unlink (s : Site P) (p : P) (operation : Operation) : Site P :=
  match s.claimFile with
  | none   => s.finish p operation (.error (.other "No such file or directory"))
  | some _ => { s with claimFile := none }.finish p operation (.ok ())

/-- The next file operation of a process; an idle one begins the call it is given. -/
def step (s : Site P) (p : P) (call : Call) : Site P :=
  match s.phase p with
  | .idle => s.goto p call.start
  | .claimRead c =>
    if c ≠ checkpoint then s.finish p .claim (.error (.other "checkpoint identity mismatch"))
    else s.goto p (.claimTest c)
  | .claimTest c =>
    if s.consumedFile.isSome then s.finish p .claim (.error (.other "checkpoint already consumed"))
    else s.goto p (.claimCreate c)
  | .claimCreate c =>
    if s.claimFile.isSome then s.finish p .claim (.error (.other "checkpoint already has a live claim"))
    else { s with claimFile := some (ClaimDocument.text ⟨c, claimId p⟩) }.finish p .claim (.ok ())
  | .releaseRead c =>
    match s.validateClaim float claimId p c with
    | .error e => s.finish p .release (.error e)
    | .ok _    => s.goto p .releaseUnlink
  | .releaseUnlink => s.unlink p .release
  | .consumeRead c =>
    match s.validateClaim float claimId p c with
    | .error e => s.finish p .consume (.error e)
    | .ok text => s.goto p (.consumeCreate text)
  | .consumeCreate text =>
    if s.consumedFile.isSome then s.finish p .consume (.error (.other "checkpoint already consumed"))
    else { s with consumedFile := some text }.goto p .consumeUnlink
  | .consumeUnlink => s.unlink p .consume

/-- The site after the steps of a schedule. -/
def exec (s : Site P) (schedule : List (P × Call)) : Site P :=
  schedule.foldl (fun s l => s.step float checkpoint claimId l.1 l.2) s

end Site

end Protocol

/-! ## What the history says -/

section History

variable {P : Type}

def Ended.succeeded (e : Ended P) (operation : Operation) : Bool := e.operation = operation && e.result.isOk

/-- The last call of the process that succeeded was a claim. -/
def isLive [DecidableEq P] (p : P) : List (Ended P) → Bool
  | []     => false
  | e :: h => if e.process = p ∧ e.result.isOk then e.operation = .claim else isLive p h

def consumes (history : List (Ended P)) : Nat := history.countP (·.succeeded .consume)

/-- No claim succeeded after a consume had. -/
def ClaimsFirst : List (Ended P) → Prop
  | []     => True
  | e :: h => (e.succeeded .claim = true → consumes h = 0) ∧ ClaimsFirst h

/-- **One consumer**: one live claim at most, one consume at most, and no claim after it. -/
structure Exclusive [DecidableEq P] (s : Site P) : Prop where
  oneLive     : ∀ p q, isLive p s.history = true → isLive q s.history = true → p = q
  oneConsume  : consumes s.history ≤ 1
  claimsFirst : ClaimsFirst s.history

/-- A consume ended between this process's existence test and the creation it makes next. -/
def Overtaken (s : Site P) (p : P) : Prop := (∃ c, s.phase p = .claimCreate c) ∧ consumes s.history ≠ 0

theorem consumes_refused (p : P) (o : Operation) (e : Exn) (h : List (Ended P)) :
    consumes (⟨p, o, .error e⟩ :: h) = consumes h := by
  simp [consumes, Ended.succeeded, Except.isOk, Except.toBool]

theorem consumes_ok (p : P) (o : Operation) (h : List (Ended P)) :
    consumes (⟨p, o, .ok ()⟩ :: h) = consumes h + if o = .consume then 1 else 0 := by
  by_cases ho : o = .consume <;> simp [consumes, Ended.succeeded, Except.isOk, Except.toBool, ho]

theorem isLive_refused [DecidableEq P] (q p : P) (o : Operation) (e : Exn) (h : List (Ended P)) :
    isLive q (⟨p, o, .error e⟩ :: h) = isLive q h := by
  simp [isLive, Except.isOk, Except.toBool]

theorem isLive_ok [DecidableEq P] (q p : P) (o : Operation) (h : List (Ended P)) :
    isLive q (⟨p, o, .ok ()⟩ :: h) = if p = q then decide (o = .claim) else isLive q h := by
  by_cases hp : p = q <;> simp [isLive, Except.isOk, Except.toBool, hp]

theorem claimsFirst_refused (p : P) (o : Operation) (e : Exn) (h : List (Ended P)) :
    ClaimsFirst (⟨p, o, .error e⟩ :: h) ↔ ClaimsFirst h := by
  simp [ClaimsFirst, Ended.succeeded, Except.isOk, Except.toBool]

theorem claimsFirst_ok (p : P) (o : Operation) (h : List (Ended P)) :
    ClaimsFirst (⟨p, o, .ok ()⟩ :: h) ↔ (o = .claim → consumes h = 0) ∧ ClaimsFirst h := by
  simp [ClaimsFirst, Ended.succeeded, Except.isOk, Except.toBool]

end History

/-! ## Moves of the files -/

section Moves

variable {P : Type} [DecidableEq P] (float : List Char → String) (checkpoint : CheckpointIdentity) (claimId : P → String)

/-- The claim file of a process. -/
def ownClaim (p : P) : String := ClaimDocument.text ⟨checkpoint, claimId p⟩

omit [DecidableEq P] in
theorem ownClaim_inj (hids : claimId.Injective) {p q : P} (h : ownClaim checkpoint claimId p = ownClaim checkpoint claimId q) :
    p = q := by
  have hd := ClaimDocument.text_inj h
  simp only [ClaimDocument.mk.injEq, true_and] at hd
  exact hids hd

/-- A phase that only the owner of the claim file gets to. -/
def Phase.owns : Phase → Bool
  | .releaseUnlink | .consumeCreate _ | .consumeUnlink => true
  | _                                                  => false

/-- A phase between the read of the checkpoint and the end of the claim. -/
def Phase.claims (c : CheckpointIdentity) : Phase → Prop
  | .claimTest d | .claimCreate d => d = c
  | _                             => True

/-- What holds of the files, the phases and the history at every point. -/
structure Kept (s : Site P) : Prop where
  file    : ∀ t, s.claimFile = some t → ∃ p, t = ownClaim checkpoint claimId p
  live    : ∀ p, isLive p s.history = true ↔ s.claimFile = some (ownClaim checkpoint claimId p)
  owner   : ∀ p, (s.phase p).owns = true → s.claimFile = some (ownClaim checkpoint claimId p)
  claims  : ∀ p, (s.phase p).claims checkpoint
  marked  : ∀ p, s.phase p = .consumeUnlink → s.consumedFile.isSome = true ∧ consumes s.history = 0
  mark    : consumes s.history ≠ 0 → s.consumedFile.isSome = true
  once    : consumes s.history ≤ 1
  /-- a claim that comes after a consume stands in the history -/
  ordered : ClaimsFirst s.history → consumes s.history ≠ 0 → s.claimFile = none

/-- **What one step of a process can do**, with what it asks. -/
inductive Move (p : P) : Site P → Site P → Prop
  /-- to a file operation that changes nothing -/
  | goto {s : Site P} {phase : Phase} (hclaims : phase.claims checkpoint)
      (howns : phase.owns = true → s.claimFile = some (ownClaim checkpoint claimId p)) (hphase : phase ≠ .consumeUnlink) :
      Move p s (s.goto p phase)
  | refuse {s : Site P} (o : Operation) (e : Exn) : Move p s (s.finish p o (.error e))
  | claim {s : Site P} (hphase : s.phase p = .claimCreate checkpoint) (hfree : s.claimFile = none) :
      Move p s ({ s with claimFile := some (ownClaim checkpoint claimId p) }.finish p .claim (.ok ()))
  | mark {s : Site P} (text : String) (hown : s.claimFile = some (ownClaim checkpoint claimId p))
      (hfree : s.consumedFile = none) : Move p s ({ s with consumedFile := some text }.goto p .consumeUnlink)
  | unlink {s : Site P} (o : Operation) (hown : s.claimFile = some (ownClaim checkpoint claimId p))
      (hphase : o = .release ∨ o = .consume ∧ s.phase p = .consumeUnlink) :
      Move p s ({ s with claimFile := none }.finish p o (.ok ()))

variable {float checkpoint claimId}

omit [DecidableEq P] in
/-- The owner's document passes `_validate_claim`. -/
theorem validateClaim_own {s : Site P} {p : P} {c : CheckpointIdentity}
    (h : s.claimFile = some (ClaimDocument.text ⟨c, claimId p⟩)) :
    s.validateClaim float claimId p c = .ok (ClaimDocument.text ⟨c, claimId p⟩) := by
  unfold Site.validateClaim
  rw [h]
  simp only [checkClaim_text]
  rfl

/-- No other document passes `_validate_claim`. -/
theorem validateClaim_ok (hids : claimId.Injective) {s : Site P} (h : Kept checkpoint claimId s) {p : P}
    {c : CheckpointIdentity} {text : String} (hv : s.validateClaim float claimId p c = .ok text) :
    s.claimFile = some (ownClaim checkpoint claimId p) := by
  unfold Site.validateClaim at hv
  cases hfile : s.claimFile with
  | none   => rw [hfile] at hv; cases hv
  | some t =>
    obtain ⟨q, rfl⟩ := h.file t hfile
    rw [hfile] at hv
    simp only [ownClaim, checkClaim_text] at hv
    split at hv
    · rename_i heq
      simp only [ClaimDocument.mk.injEq] at heq
      rw [hids heq.2]
    · cases hv

/-- **Every step is one of these moves.** -/
theorem step_move (hids : claimId.Injective) {s : Site P} (h : Kept checkpoint claimId s) (p : P) (call : Call) :
    Move checkpoint claimId p s (s.step float checkpoint claimId p call) := by
  unfold Site.step
  cases hp : s.phase p with
  | idle =>
    refine .goto ?_ ?_ ?_ <;> (unfold Call.start; cases call.operation <;> simp [Phase.claims, Phase.owns])
  | claimRead c =>
    dsimp only
    split
    · exact .refuse _ _
    · rename_i hc
      exact .goto (not_not.1 hc) (by simp [Phase.owns]) (by simp)
  | claimTest c =>
    have hc : c = checkpoint := by simpa [hp, Phase.claims] using h.claims p
    dsimp only
    split
    · exact .refuse _ _
    · exact .goto hc (by simp [Phase.owns]) (by simp)
  | claimCreate c =>
    have hc : c = checkpoint := by simpa [hp, Phase.claims] using h.claims p
    subst hc
    dsimp only
    split
    · exact .refuse _ _
    · rename_i hfree
      exact .claim hp (by simpa using hfree)
  | releaseRead c =>
    dsimp only
    split
    · exact .refuse _ _
    · rename_i hv
      exact .goto trivial (fun _ => validateClaim_ok hids h hv) (by simp)
  | releaseUnlink =>
    have hown := h.owner p (by rw [hp]; rfl)
    dsimp only [Site.unlink]
    rw [hown]
    exact .unlink _ hown (.inl rfl)
  | consumeRead c =>
    dsimp only
    split
    · exact .refuse _ _
    · rename_i hv
      exact .goto trivial (fun _ => validateClaim_ok hids h hv) (by simp)
  | consumeCreate text =>
    have hown := h.owner p (by rw [hp]; rfl)
    dsimp only
    split
    · exact .refuse _ _
    · rename_i hfree
      exact .mark text hown (by simpa using hfree)
  | consumeUnlink =>
    have hown := h.owner p (by rw [hp]; rfl)
    dsimp only [Site.unlink]
    rw [hown]
    exact .unlink _ hown (.inr ⟨rfl, hp⟩)

theorem kept_saved : Kept checkpoint claimId (Site.saved P) where
  file _ h    := by cases h
  live _      := by simp [Site.saved, isLive]
  owner _ h   := by cases h
  claims _    := trivial
  marked _ h  := by cases h
  mark h      := absurd rfl h
  once        := Nat.zero_le _
  ordered _ h := absurd rfl h

theorem kept_goto {s : Site P} (h : Kept checkpoint claimId s) (p : P) {phase : Phase} (hclaims : phase.claims checkpoint)
    (howns : phase.owns = true → s.claimFile = some (ownClaim checkpoint claimId p)) (hphase : phase ≠ .consumeUnlink) :
    Kept checkpoint claimId (s.goto p phase) := by
  refine { h with owner := fun q hq => ?_, claims := fun q => ?_, marked := fun q hq => ?_ }
  · rw [Site.goto_phase] at hq
    split at hq
    · rename_i hqp
      rw [hqp]
      exact howns hq
    · exact h.owner q hq
  · rw [Site.goto_phase]
    split
    · exact hclaims
    · exact h.claims q
  · rw [Site.goto_phase] at hq
    split at hq
    · exact absurd hq hphase
    · exact h.marked q hq

theorem kept_refuse {s : Site P} (h : Kept checkpoint claimId s) (p : P) (o : Operation) (e : Exn) :
    Kept checkpoint claimId (s.finish p o (.error e)) := by
  have hidle : Kept checkpoint claimId (s.goto p .idle) := kept_goto h p trivial (by simp [Phase.owns]) (by simp)
  have hcount : consumes (s.finish p o (.error e)).history = consumes s.history := consumes_refused p o e s.history
  refine { hidle with live := fun q => ?_, marked := fun q hq => ?_, mark := ?_, once := ?_, ordered := ?_ }
  · show isLive q (⟨p, o, .error e⟩ :: s.history) = true ↔ s.claimFile = _
    rw [isLive_refused]
    exact h.live q
  · rw [hcount]
    exact hidle.marked q hq
  · rw [hcount]
    exact h.mark
  · rw [hcount]
    exact h.once
  · rw [hcount]
    exact fun ho => h.ordered ((claimsFirst_refused p o e s.history).1 ho)

/-- Only its owner stands at an operation on the claim file. -/
theorem Kept.only (hids : claimId.Injective) {s : Site P} (h : Kept checkpoint claimId s) {p q : P} (hqp : q ≠ p)
    (hfile : s.claimFile = some (ownClaim checkpoint claimId p)) :
    (s.phase q).owns = false ∧ isLive q s.history = false := by
  have hne : s.claimFile ≠ some (ownClaim checkpoint claimId q) := by
    rw [hfile]
    exact fun heq => hqp (ownClaim_inj checkpoint claimId hids (Option.some.inj heq)).symm
  exact ⟨by simpa using fun ho => hne (h.owner q ho), by simpa using fun hl => hne ((h.live q).1 hl)⟩

/-- Without a claim file nobody stands at an operation on it. -/
theorem Kept.nobody {s : Site P} (h : Kept checkpoint claimId s) (hfree : s.claimFile = none) (q : P) :
    (s.phase q).owns = false ∧ isLive q s.history = false := by
  have hne : s.claimFile ≠ some (ownClaim checkpoint claimId q) := by
    rw [hfree]
    simp
  exact ⟨by simpa using fun ho => hne (h.owner q ho), by simpa using fun hl => hne ((h.live q).1 hl)⟩

/-- A call that ends well where nobody but the caller stands at an operation on the claim file. -/
theorem kept_finish {s : Site P} (h : Kept checkpoint claimId s) (p : P) (o : Operation) (file : Option String)
    (halone : ∀ q, q ≠ p → (s.phase q).owns = false ∧ isLive q s.history = false)
    (hfile : file = if o = .claim then some (ownClaim checkpoint claimId p) else none)
    (hmark : consumes (⟨p, o, .ok ()⟩ :: s.history) ≠ 0 → s.consumedFile.isSome = true)
    (honce : consumes (⟨p, o, .ok ()⟩ :: s.history) ≤ 1)
    (hids : claimId.Injective) : Kept checkpoint claimId ({ s with claimFile := file }.finish p o (.ok ())) := by
  have hphase : ∀ q, (({ s with claimFile := file }.finish p o (.ok ())).phase q).owns = false := fun q => by
    rw [Site.finish_phase]
    split
    · rfl
    · rename_i hqp
      exact (halone q hqp).1
  refine ⟨fun t ht => ⟨p, ?_⟩, fun q => ?_, fun q hq => ?_, fun q => ?_, fun q hq => ?_, hmark, honce, fun ho hc => ?_⟩
  · rw [show (Site.finish { s with claimFile := file } p o (.ok ())).claimFile = file from rfl, hfile] at ht
    split at ht
    · exact (Option.some.inj ht).symm
    · cases ht
  · show isLive q (⟨p, o, .ok ()⟩ :: s.history) = true ↔ file = some (ownClaim checkpoint claimId q)
    rw [isLive_ok, hfile]
    by_cases hpq : p = q
    · by_cases ho : o = .claim <;> simp [hpq, ho]
    · have hne : ownClaim checkpoint claimId p ≠ ownClaim checkpoint claimId q := fun heq =>
        hpq (ownClaim_inj checkpoint claimId hids heq)
      rw [if_neg hpq, (halone q (Ne.symm hpq)).2]
      by_cases ho : o = .claim <;> simp [ho, hne]
  · rw [hphase q] at hq
    cases hq
  · rw [Site.finish_phase]
    split
    · trivial
    · exact h.claims q
  · have hq' := hphase q
    rw [hq] at hq'
    cases hq'
  · show file = none
    rw [hfile, if_neg]
    rintro rfl
    have hfirst := ((claimsFirst_ok p .claim s.history).1 ho).1 rfl
    exact hc ((consumes_ok p .claim s.history).trans hfirst)

/-- **Every move keeps what holds of the site.** -/
theorem Move.kept (hids : claimId.Injective) {p : P} {s s' : Site P} (h : Kept checkpoint claimId s)
    (hm : Move checkpoint claimId p s s') : Kept checkpoint claimId s' := by
  cases hm with
  | goto hclaims howns hphase => exact kept_goto h p hclaims howns hphase
  | refuse o e => exact kept_refuse h p o e
  | claim hphase hfree =>
    have hcount : consumes (⟨p, .claim, .ok ()⟩ :: s.history) = consumes s.history := consumes_ok p .claim s.history
    refine kept_finish h p .claim _ (fun q _ => h.nobody hfree q) rfl ?_ ?_ hids
    · rw [hcount]
      exact h.mark
    · rw [hcount]
      exact h.once
  | mark text hown hfree =>
    have hcount : consumes s.history = 0 := by
      by_contra hc
      have hsome := h.mark hc
      rw [hfree] at hsome
      cases hsome
    refine { h with owner := fun q hq => ?_, claims := fun q => ?_, marked := fun q hq => ⟨rfl, hcount⟩,
                    mark := fun _ => rfl }
    · rw [Site.goto_phase] at hq
      split at hq
      · rename_i hqp
        rw [hqp]
        exact hown
      · exact h.owner q hq
    · rw [Site.goto_phase]
      split
      · trivial
      · exact h.claims q
  | unlink o hown hphase =>
    rcases hphase with rfl | ⟨rfl, hp⟩
    · exact kept_finish h p .release none (fun q hqp => h.only hids hqp hown) rfl h.mark h.once hids
    · obtain ⟨hmark, hzero⟩ := h.marked p hp
      have hcount : consumes (⟨p, .consume, .ok ()⟩ :: s.history) = 1 := by
        rw [consumes_ok, hzero]
        rfl
      exact kept_finish h p .consume none (fun q hqp => h.only hids hqp hown) rfl (fun _ => hmark) hcount.le hids

/-! ## Whole schedules -/

theorem exec_kept (hids : claimId.Injective) : ∀ (schedule : List (P × Call)) {s : Site P}, Kept checkpoint claimId s →
    Kept checkpoint claimId (s.exec float checkpoint claimId schedule)
  | [], _, h          => h
  | l :: schedule, _, h => exec_kept hids schedule ((step_move hids h l.1 l.2).kept hids h)

omit [DecidableEq P] in
/-- What a site keeps makes one consumer of it, but for a claim that comes late. -/
theorem Kept.exclusive [DecidableEq P] (hids : claimId.Injective) {s : Site P} (h : Kept checkpoint claimId s)
    (hfirst : ClaimsFirst s.history) : Exclusive s where
  oneLive p q hp hq :=
    ownClaim_inj checkpoint claimId hids (Option.some.inj (((h.live p).1 hp).symm.trans ((h.live q).1 hq)))
  oneConsume  := h.once
  claimsFirst := hfirst

/-- A move of a process that is not overtaken makes no claim after a consume. -/
theorem Move.claimsFirst {p : P} {s s' : Site P} (hm : Move checkpoint claimId p s s') (hfirst : ClaimsFirst s.history)
    (hot : ¬ Overtaken s p) : ClaimsFirst s'.history := by
  cases hm with
  | goto | mark          => exact hfirst
  | refuse o e           => exact (claimsFirst_refused p o e s.history).2 hfirst
  | claim hphase         =>
    exact (claimsFirst_ok p .claim s.history).2 ⟨fun _ => by_contra fun hc => hot ⟨⟨_, hphase⟩, hc⟩, hfirst⟩
  | unlink o hown hphase =>
    have hno : o ≠ .claim := by
      rcases hphase with rfl | ⟨rfl, -⟩ <;> decide
    exact (claimsFirst_ok p o s.history).2 ⟨fun ho => absurd ho hno, hfirst⟩

/-- A process that is overtaken makes a claim after a consume. -/
theorem step_overtaken {s : Site P} (h : Kept checkpoint claimId s) (hfirst : ClaimsFirst s.history) {p : P} {call : Call}
    (hot : Overtaken s p) : ¬ ClaimsFirst (s.step float checkpoint claimId p call).history := by
  obtain ⟨⟨c, hphase⟩, hc⟩ := hot
  have hfree := h.ordered hfirst hc
  have hstep : (s.step float checkpoint claimId p call).history = ⟨p, .claim, .ok ()⟩ :: s.history := by
    unfold Site.step
    rw [hphase]
    simp [hfree, Site.finish]
  rw [hstep, claimsFirst_ok]
  exact fun hlate => hc (hlate.1 rfl)

/-- **There is one consumer at every point of a schedule exactly when no claim of it is overtaken**: when no process
creates its claim file after a consume ended. -/
theorem exec_exclusive_iff (hids : claimId.Injective) (schedule : List (P × Call)) :
    (∀ before after, schedule = before ++ after →
      Exclusive ((Site.saved P).exec float checkpoint claimId before)) ↔
    ∀ before l after, schedule = before ++ l :: after →
      ¬ Overtaken ((Site.saved P).exec float checkpoint claimId before) l.1 := by
  have hkept : ∀ before, Kept checkpoint claimId ((Site.saved P).exec float checkpoint claimId before) := fun before =>
    exec_kept hids before kept_saved
  have hsnoc : ∀ before (l : P × Call), (Site.saved P).exec float checkpoint claimId (before ++ [l]) =
      ((Site.saved P).exec float checkpoint claimId before).step float checkpoint claimId l.1 l.2 := fun before l => by
    unfold Site.exec
    rw [List.foldl_append]
    rfl
  constructor
  · intro hexclusive before l after hs hot
    have hbefore := (hexclusive before (l :: after) hs).claimsFirst
    have hafter := (hexclusive (before ++ [l]) after (by rw [hs, List.append_assoc]; rfl)).claimsFirst
    rw [hsnoc] at hafter
    exact step_overtaken (hkept before) hbefore hot hafter
  · intro hnot before after hs
    refine (hkept before).exclusive hids ?_
    -- by induction on the steps taken, the last one last
    induction before using List.reverseRec generalizing after with
    | nil => trivial
    | append_singleton before l ih =>
      have hs' : schedule = before ++ l :: after := by rw [hs, List.append_assoc]; rfl
      rw [hsnoc]
      exact (step_move hids (hkept before) l.1 l.2).claimsFirst (ih (l :: after) hs') (hnot before l after hs')

/-! ## A claim that comes late -/

/-- Steps of one process. -/
def steps (checkpoint : CheckpointIdentity) (p : P) (operation : Operation) (n : Nat) : List (P × Call) :=
  List.replicate n (p, ⟨operation, checkpoint⟩)

/-- One process claims; the other one sees no consumed file; the first consumes; the other one creates its claim. -/
def lateClaim (checkpoint : CheckpointIdentity) (p q : P) : List (P × Call) :=
  steps checkpoint p .claim 4 ++ steps checkpoint q .claim 3 ++ steps checkpoint p .consume 4 ++
    steps checkpoint q .claim 1

theorem lateClaim_history {p q : P} (hpq : p ≠ q) :
    ((Site.saved P).exec float checkpoint claimId (lateClaim checkpoint p q)).history =
      [⟨q, .claim, .ok ()⟩, ⟨p, .consume, .ok ()⟩, ⟨p, .claim, .ok ()⟩] := by
  simp [lateClaim, steps, List.replicate, Site.exec, Site.step, Site.saved, Site.goto, Site.finish, Site.unlink,
    Call.start, validateClaim_own, hpq, hpq.symm]

/-- **Two processes are enough**: the claim of the second comes after the consume of the first. -/
theorem late_not_exclusive {p q : P} (hpq : p ≠ q) :
    ¬ Exclusive ((Site.saved P).exec float checkpoint claimId (lateClaim checkpoint p q)) := by
  intro hexclusive
  have hfirst := hexclusive.claimsFirst
  rw [lateClaim_history hpq, claimsFirst_ok, consumes_ok] at hfirst
  exact absurd (hfirst.1 rfl) (Nat.succ_ne_zero _)

/-- One process claims and consumes. -/
def inTurn (checkpoint : CheckpointIdentity) (p : P) : List (P × Call) :=
  steps checkpoint p .claim 4 ++ steps checkpoint p .consume 4

/-- No consume of it ended before its last step. -/
theorem inTurn_consumes (p : P) : ∀ n < 8,
    consumes ((Site.saved P).exec float checkpoint claimId ((inTurn checkpoint p).take n)).history = 0 := by
  intro n hn
  interval_cases n <;>
    simp [inTurn, steps, List.replicate, Site.exec, Site.step, Site.saved, Site.goto, Site.finish, Call.start,
      validateClaim_own, consumes, Ended.succeeded]

theorem inTurn_not_overtaken (p : P) : ∀ before l after, inTurn checkpoint p = before ++ l :: after →
    ¬ Overtaken ((Site.saved P).exec float checkpoint claimId before) l.1 := by
  intro before l after hs hot
  have hlength : before.length < 8 := by
    have h := congrArg List.length hs
    simp only [inTurn, steps, List.length_append, List.length_replicate, List.length_cons] at h
    omega
  have hzero := @inTurn_consumes P _ float checkpoint claimId p before.length hlength
  rw [hs, List.take_left] at hzero
  exact hot.2 hzero

end Moves

def publishedCheckpoint : CheckpointIdentity := ⟨"execution-1", 2⟩

/-- Two processes with claim ids of their own. -/
def processClaim (p : Bool) : String := if p then "claim-a" else "claim-b"

theorem processClaim_injective : processClaim.Injective := by
  intro p q
  cases p <;> cases q <;> decide

theorem lateClaim_not_exclusive :
    ¬ Exclusive ((Site.saved Bool).exec String.ofList publishedCheckpoint processClaim
      (lateClaim publishedCheckpoint true false)) := late_not_exclusive (by decide)

theorem inTurn_exclusive :
    Exclusive ((Site.saved Bool).exec String.ofList publishedCheckpoint processClaim (inTurn publishedCheckpoint true)) :=
  (exec_exclusive_iff processClaim_injective _).2 (inTurn_not_overtaken true) _ [] (List.append_nil _).symm

end Claims
end Nsl
