import CardanoGraphql.HasuraBackgroundClient

namespace CardanoGraphql.ChainFollower

open HasuraBackgroundClient KeyedTable

inductive PointOrOrigin
  | origin
  | point (p : Point)
deriving DecidableEq, Repr

inductive Tip
  | origin
  | tip (slot : Nat) (id : String)
deriving DecidableEq, Repr

def Tip.slot : Tip → Option Nat
  | .origin => none
  | .tip slot _ => some slot

/-- `mint` maps policy ids to asset names to quantities, in the order of `Object.entries`. -/
structure Transaction where
  mint : Option (List (String × List (String × Int)))
deriving DecidableEq, Repr

structure BlockBody where
  slot : Nat
  id : String
  transactions : Option (List Transaction)
deriving DecidableEq, Repr

inductive Block
  | praos (b : BlockBody)
  | bft (b : BlockBody)
  | ebb (id : String)
deriving DecidableEq, Repr

def Block.body : Block → Option BlockBody
  | .praos b | .bft b => some b
  | .ebb _ => none

inductive CallOutcome
  | succeeds
  | failsUnapplied
  | failsApplied
deriving DecidableEq, Repr

/-- What the follower meets outside the process: the readings of `Date.now()` and the
outcomes of the database calls, each numbered in the order they are made. -/
structure Externals where
  now : Nat → Int
  insertCall : Nat → CallOutcome
  deleteCall : Nat → CallOutcome
  assetFingerprint : String → Option String → String

inductive Event
  | inserted (assetId : String)
  | deleted (slotNo : Nat)
  | published (assetId : String)
  | requestNext
deriving DecidableEq, Repr

structure Follower where
  assets : List Asset
  cacheAssets : List AssetWithoutTokens
  cacheTimer : Int
  clockReads : Nat
  insertCalls : Nat
  deleteCalls : Nat
  trace : List Event
deriving DecidableEq, Repr

abbrev Handler := ExceptT String (StateM Follower)

def call {α : Type} (h : Handler α) (s : Follower) : Except String α × Follower := h.run s

def exec (h : Handler Unit) (s : Follower) : Follower := (call h s).2

def log (events : List Event) : Handler Unit :=
  modify fun s => { s with trace := s.trace ++ events }

/-- `try { … } catch (e) { console.log(e) }` -/
def catchAndLog (h : Handler Unit) : Handler Unit := fun s => (.ok (), exec h s)

section Definitions

variable (env : Externals)

def start (assets : List Asset) : Follower :=
  { assets := assets
    cacheAssets := []
    cacheTimer := env.now 0
    clockReads := 1
    insertCalls := 0
    deleteCalls := 0
    trace := [] }

def dateNow : Handler Int := fun s =>
  (.ok (env.now s.clockReads), { s with clockReads := s.clockReads + 1 })

def Follower.insertCache (s : Follower) : Follower :=
  { s with
    assets := insertAssets s.assets s.cacheAssets
    trace := s.trace ++ (insertedAssets s.assets s.cacheAssets).map fun a => .inserted a.assetId }

def insertCache : Handler (List Asset) := fun s =>
  let t := { s with insertCalls := s.insertCalls + 1 }
  match env.insertCall s.insertCalls with
  | .succeeds => (.ok (insertedAssets s.assets s.cacheAssets), t.insertCache)
  | .failsUnapplied => (.error "insertAssets", t)
  | .failsApplied => (.error "insertAssets", t.insertCache)

def Follower.deleteAfter (slotNo : Nat) (s : Follower) : Follower :=
  { s with
    assets := deleteAssetsAfterSlot s.assets slotNo
    trace := s.trace ++ [.deleted slotNo] }

def deleteAssets (slotNo : Nat) : Handler Unit := fun s =>
  let t := { s with deleteCalls := s.deleteCalls + 1 }
  match env.deleteCall s.deleteCalls with
  | .succeeds => (.ok (), t.deleteAfter slotNo)
  | .failsUnapplied => (.error "deleteAssetsAfterSlot", t)
  | .failsApplied => (.error "deleteAssetsAfterSlot", t.deleteAfter slotNo)

def replaceFirstPrefix : List Char → List Char
  | [] => []
  | '\\' :: 'x' :: rest => rest
  | c :: rest => c :: replaceFirstPrefix rest

/-- `assetId.replace('\\x', '')`: only the first occurrence goes. -/
def stripHexPrefix (assetId : String) : String :=
  String.ofList (replaceFirstPrefix assetId.toList)

def cacheEntry (policyId : String) (assetName : Option String) (b : BlockBody) : AssetWithoutTokens :=
  { assetId := policyId ++ assetName.getD ""
    assetName := assetName
    firstAppearedInSlot := b.slot
    fingerprint := env.assetFingerprint policyId assetName
    policyId := policyId }

def Follower.push (asset : AssetWithoutTokens) (s : Follower) : Follower :=
  { s with cacheAssets := s.cacheAssets ++ [asset] }

def Follower.publish (returning : List Asset) (s : Follower) : Follower :=
  { s with
    cacheAssets := []
    trace := s.trace ++ returning.map fun asset => .published (stripHexPrefix asset.assetId) }

def isTip (b : BlockBody) (tip : Tip) : Bool := decide (tip.slot = some b.slot)

/-- The condition of the flush. The clock is read only where the first two parts
are false; `(Date.now() - this.cacheTimer) / 1000 > 60` is in milliseconds here. -/
def flushDue (tipReached : Bool) : Handler Bool := do
  let s ← get
  match tipReached || decide (s.cacheAssets.length > 1000) with
  | true => return true
  | false =>
    let now ← dateNow env
    return decide (now - s.cacheTimer > 60 * 1000)

def saveAsset (policyId : String) (assetName : Option String) (b : BlockBody) (tip : Tip) :
    Handler Unit := do
  modify (Follower.push (cacheEntry env policyId assetName b))
  if ← flushDue env (isTip b tip) then
    let now ← dateNow env
    modify fun s => { s with cacheTimer := now }
    let returning ← insertCache env
    modify (Follower.publish returning)

def saveMints (b : BlockBody) (tip : Tip) (tx : Transaction) : Handler Unit :=
  match tx.mint with
  | none => pure ()
  | some mint =>
    forM mint fun entry =>
      forM (entry.2.map Prod.fst) fun assetName => saveAsset env entry.1 (some assetName) b tip

def saveBlock (block : Block) (tip : Tip) : Handler Unit :=
  match block with
  | .ebb _ => pure ()
  | .praos b | .bft b =>
    match b.transactions with
    | none => pure ()
    | some transactions => forM transactions (saveMints env b tip)

def rollForward (block : Block) (tip : Tip) : Handler Unit := do
  catchAndLog (saveBlock env block tip)
  log [.requestNext]

def rollBackward (point : PointOrOrigin) : Handler Unit := do
  match point with
  | .point p => deleteAssets env p.slot
  | .origin => deleteAssets env 0
  log [.requestNext]

end Definitions

section Calls

variable {α β : Type}

@[simp] theorem call_bind (h : Handler α) (f : α → Handler β) (s : Follower) :
    call (h >>= f) s = match call h s with
      | (.ok a, t) => call (f a) t
      | (.error e, t) => (.error e, t) := by
  have hb : call (h >>= f) s = ExceptT.bindCont f (call h s).1 (call h s).2 := rfl
  rw [hb]
  rcases call h s with ⟨r, t⟩
  cases r <;> rfl

@[simp] theorem call_pure (a : α) (s : Follower) : call (pure a) s = (.ok a, s) := rfl

@[simp] theorem call_get (s : Follower) : call get s = (.ok s, s) := rfl

@[simp] theorem call_modify (f : Follower → Follower) (s : Follower) :
    call (modify f) s = (.ok (), f s) := rfl

@[simp] theorem call_log (events : List Event) (s : Follower) :
    call (log events) s = (.ok (), { s with trace := s.trace ++ events }) := rfl

@[simp] theorem call_catchAndLog (h : Handler Unit) (s : Follower) :
    call (catchAndLog h) s = (.ok (), exec h s) := rfl

end Calls

@[simp] theorem stripHexPrefix_withHexPrefix (value : String) :
    stripHexPrefix (withHexPrefix (some value)) = value := by
  simp [stripHexPrefix, withHexPrefix, replaceFirstPrefix]

def quiet : Externals :=
  { now := fun _ => 0
    insertCall := fun _ => .succeeds
    deleteCall := fun _ => .succeeds
    assetFingerprint := fun policyId _ => policyId }

def policy : String := "00000000000000000000000000000000000000000000000000000000"

def mintBlock (slot : Nat) (id : String) (assetNames : List String) : BlockBody :=
  { slot := slot
    id := id
    transactions := some [⟨some [(policy, assetNames.map fun name => (name, 1))]⟩] }

end CardanoGraphql.ChainFollower
