import CardanoGraphql.AdaSupply
import CardanoGraphql.LedgerViews

namespace CardanoGraphql.SupplyConservation

open Runs DbSync SqlJoin UtxoLedger LedgerViews StakePoolView BigNumber AdaSupply

/-- What the chain brings: a transaction with the rewards that accounts withdraw in it and the
deposits that it makes, or takes back, and the rewards that an epoch pays to accounts. -/
inductive Event
  | transaction (e : Entry) (withdrawals : List (String × Nat)) (deposit : Int)
  | rewarded (rewards : List (String × Nat))

def advance (l : UtxoLedger.Ledger String String AssetName) : Event →
    Option (UtxoLedger.Ledger String String AssetName)
  | .transaction e withdrawals deposit =>
      if (l.spentValue e.transaction : Int) + (withdrawals.map Prod.snd).sum =
          e.transaction.value + e.fee.getD 0 + deposit then
        l.apply e.transaction
      else none
  | .rewarded _ => some l

/-- By how much the event changes what circulates. -/
def Event.change : Event → Int
  | .transaction e _ deposit => -(e.fee.getD 0 : Nat) - deposit
  | .rewarded rewards => (rewards.map Prod.snd).sum

section Writer

def Pays (addresses : List StakeAddressRecord) (addrId amount : Nat) (payment : String × Nat) : Prop :=
  amount = payment.2 ∧ ∃ a ∈ addresses, a.id = addrId ∧ a.view = payment.1

/-- The rows that `cardano-db-sync` adds for withdrawals and rewards, with the addresses of accounts
that it has not met before. -/
structure AddsPayments (db : AdaSupply.Ledger) (withdrawals rewards : List (String × Nat)) (db' : AdaSupply.Ledger) :
    Prop where
  kept : ∀ a ∈ db.stakeAddress, a ∈ db'.stakeAddress
  ids : (db'.stakeAddress.map StakeAddressRecord.id).Nodup
  withdrawal : ∃ rows, db'.withdrawal = db.withdrawal ++ rows ∧
    List.Forall₂ (fun r => Pays db'.stakeAddress r.addrId r.amount) rows withdrawals
  reward : ∃ rows, db'.reward = db.reward ++ rows ∧
    List.Forall₂ (fun r => Pays db'.stakeAddress r.addrId r.amount) rows rewards

def AddsEvent (db : AdaSupply.Ledger) : Event → AdaSupply.Ledger → Prop
  | .transaction e withdrawals _, db' =>
      (∃ rows, Adds db.toTables e rows db'.toTables) ∧ AddsPayments db withdrawals [] db'
  | .rewarded rewards, db' => db'.toTables = db.toTables ∧ AddsPayments db [] rewards db'

def Event.Resolves (db : Tables) : Event → Prop
  | .transaction e _ _ => LedgerViews.Resolves db e
  | .rewarded _ => True

/-- What is relied on of `cardano-db-sync`, which writes the tables. -/
def RecordsEvents (record : AdaSupply.Ledger → Event → AdaSupply.Ledger) : Prop :=
  ∀ db event, (db.stakeAddress.map StakeAddressRecord.id).Nodup → event.Resolves db.toTables →
    AddsEvent db event (record db event)

end Writer

/-- Every reward and every withdrawal is of an account that has its address. -/
structure Accounts (db : AdaSupply.Ledger) : Prop where
  ids : (db.stakeAddress.map StakeAddressRecord.id).Nodup
  rewards : ∀ r ∈ db.reward, ∃ a ∈ db.stakeAddress, a.id = r.addrId
  withdrawals : ∀ w ∈ db.withdrawal, ∃ a ∈ db.stakeAddress, a.id = w.addrId

section Views

variable {ρ : Type} {addrId amount : ρ → Nat} {addresses : List StakeAddressRecord}

theorem joined_all (hids : (addresses.map StakeAddressRecord.id).Nodup) {rows : List ρ}
    (hrows : ∀ r ∈ rows, ∃ a ∈ addresses, a.id = addrId r) :
    (innerJoin (fun r (a : StakeAddressRecord) => decide (addrId r = a.id)) rows addresses).map Prod.fst = rows := by
  have hone : ∀ r ∈ rows, addresses.countP (fun a => decide (addrId r = a.id)) ≤ 1 :=
    fun r _ => countP_key_symm hids (addrId r)
  rw [map_fst_innerJoin hone, List.filter_eq_self]
  intro r hr
  obtain ⟨a, ha, hid⟩ := hrows r hr
  exact List.any_eq_true.mpr ⟨a, ha, decide_eq_true hid.symm⟩

theorem paid_rows {rows : List ρ} {payments : List (String × Nat)}
    (h : List.Forall₂ (fun r => Pays addresses (addrId r) (amount r)) rows payments) :
    rows.map amount = payments.map Prod.snd ∧ ∀ r ∈ rows, ∃ a ∈ addresses, a.id = addrId r := by
  induction h with
  | nil => exact ⟨rfl, List.forall_mem_nil _⟩
  | cons hpays _ ih =>
      obtain ⟨hamount, a, ha, hid, -⟩ := hpays
      refine ⟨?_, List.forall_mem_cons.mpr ⟨⟨a, ha, hid⟩, ih.2⟩⟩
      rw [List.map_cons, List.map_cons, hamount, ih.1]

variable {db db' : AdaSupply.Ledger}

theorem rewards_amount (h : Accounts db) : (rewards db).map Reward.amount = db.reward.map RewardRecord.amount := by
  have hjoined := congrArg (List.map RewardRecord.amount) (joined_all h.ids h.rewards)
  rw [List.map_map] at hjoined
  rw [rewards, List.map_map]
  exact hjoined

theorem withdrawals_amount (h : Accounts db) :
    (withdrawals db).map Withdrawal.amount = db.withdrawal.map WithdrawalRecord.amount := by
  have hjoined := congrArg (List.map WithdrawalRecord.amount) (joined_all h.ids h.withdrawals)
  rw [List.map_map] at hjoined
  rw [withdrawals, List.map_map]
  exact hjoined

theorem payments_added {paidOut paidIn : List (String × Nat)} (h : Accounts db)
    (ha : AddsPayments db paidOut paidIn db') :
    Accounts db' ∧
      ((withdrawals db').map Withdrawal.amount).sum =
        ((withdrawals db).map Withdrawal.amount).sum + (paidOut.map Prod.snd).sum ∧
      ((rewards db').map Reward.amount).sum =
        ((rewards db).map Reward.amount).sum + (paidIn.map Prod.snd).sum := by
  obtain ⟨taken, htaken, hout⟩ := ha.withdrawal
  obtain ⟨given, hgiven, hin⟩ := ha.reward
  obtain ⟨htakenAmounts, htakenIds⟩ := paid_rows hout
  obtain ⟨hgivenAmounts, hgivenIds⟩ := paid_rows hin
  have hold : ∀ {id : Nat}, (∃ a ∈ db.stakeAddress, a.id = id) → ∃ a ∈ db'.stakeAddress, a.id = id :=
    fun ⟨a, hmem, hid⟩ => ⟨a, ha.kept a hmem, hid⟩
  have hnext : Accounts db' := by
    refine ⟨ha.ids, fun r hr => ?_, fun w hw => ?_⟩
    · rw [hgiven] at hr
      rcases List.mem_append.mp hr with hr | hr
      · exact hold (h.rewards r hr)
      · exact hgivenIds r hr
    · rw [htaken] at hw
      rcases List.mem_append.mp hw with hw | hw
      · exact hold (h.withdrawals w hw)
      · exact htakenIds w hw
  refine ⟨hnext, ?_, ?_⟩
  · rw [withdrawals_amount hnext, withdrawals_amount h, htaken, List.map_append, List.sum_append, htakenAmounts]
  · rw [rewards_amount hnext, rewards_amount h, hgiven, List.map_append, List.sum_append, hgivenAmounts]

theorem total_of_ledger {tables : Tables} {l : UtxoLedger.Ledger String String AssetName}
    (h : Represents tables l) : ((utxos tables).map TransactionOutput.value).sum = l.total := by
  have hvalues := congrArg (List.map fun o : Output String String String => o.payment.value) h.unspent
  rw [List.map_map, List.map_map] at hvalues
  exact congrArg List.sum hvalues

end Views

section Runs

variable {record : AdaSupply.Ledger → Event → AdaSupply.Ledger} {db : AdaSupply.Ledger}
  {l l' : UtxoLedger.Ledger String String AssetName}

theorem resolves_of_advance (h : Represents db.toTables l) {event : Event} (hstep : advance l event = some l') :
    event.Resolves db.toTables := by
  cases event with
  | transaction e withdrawals deposit =>
      rw [advance] at hstep
      split at hstep
      next => exact resolves_of_apply h hstep
      next => cases hstep
  | rewarded rewards => trivial

theorem circulation_recorded (hrecord : RecordsEvents record) (h : Represents db.toTables l) (ha : Accounts db)
    {event : Event} (hstep : advance l event = some l') :
    circulation (record db event) = circulation db + event.change ∧
      Represents (record db event).toTables l' ∧ Accounts (record db event) := by
  have hadds := hrecord db event ha.ids (resolves_of_advance h hstep)
  generalize record db event = db' at hadds ⊢
  cases event with
  | transaction e paidOut deposit =>
      rw [advance] at hstep
      split at hstep
      next hbalanced =>
        obtain ⟨⟨rows, hrows⟩, hpayments⟩ := hadds
        have hnext := represents_added h hrows hstep
        obtain ⟨haccounts, hwithdrawals, hrewards⟩ := payments_added ha hpayments
        have htotal := total_apply hstep
        refine ⟨?_, hnext, haccounts⟩
        rw [List.map_nil, List.sum_nil, Nat.add_zero] at hrewards
        rw [circulation, circulation, total_of_ledger hnext, total_of_ledger h, hwithdrawals, hrewards, Event.change]
        omega
      next => cases hstep
  | rewarded paidIn =>
      obtain rfl := Option.some.inj hstep
      obtain ⟨htables, hpayments⟩ := hadds
      obtain ⟨haccounts, hwithdrawals, hrewards⟩ := payments_added ha hpayments
      have hnext : Represents db'.toTables l := htables.symm ▸ h
      refine ⟨?_, hnext, haccounts⟩
      rw [List.map_nil, List.sum_nil, Nat.add_zero] at hwithdrawals
      rw [circulation, circulation, total_of_ledger hnext, total_of_ledger h, hwithdrawals, hrewards, Event.change]
      omega

theorem circulation_run (hrecord : RecordsEvents record) (h : Represents db.toTables l) (ha : Accounts db)
    {events : List Event} (hrun : run advance l events = some l') :
    circulation (events.foldl record db) = circulation db + (events.map Event.change).sum ∧
      Represents (events.foldl record db).toTables l' := by
  induction events generalizing db l with
  | nil => exact ⟨(Int.add_zero _).symm, Option.some.inj hrun ▸ h⟩
  | cons event events ih =>
      obtain ⟨m, hm, hrest⟩ := Option.bind_eq_some_iff.mp hrun
      obtain ⟨hcirculation, hrepresents, haccounts⟩ := circulation_recorded hrecord h ha hm
      obtain ⟨htotal, hfinal⟩ := ih hrepresents haccounts hrest
      refine ⟨?_, hfinal⟩
      rw [List.foldl_cons, htotal, hcirculation, List.map_cons, List.sum_cons, Int.add_assoc]

/-- What the API says of the supply after any chain: the circulation has moved by what was
paid out, the fees and the deposits. -/
theorem supply_follows_events (hrecord : RecordsEvents record) (genesis : ShelleyGenesis)
    (earlier : List AdaSupply.Ledger) (h : Represents db.toTables l) (ha : Accounts db) {events : List Event}
    (hrun : run advance l events = some l')
    {pots : AdaPotsRecord} (hpots : latestPots (events.foldl record db) = some pots) (hunspent : l'.unspent ≠ [])
    (hrewards : rewards (events.foldl record db) ≠ [])
    (hwithdrawals : withdrawals (events.foldl record db) ≠ [])
    (hcirculation : (circulation db + (events.map Event.change).sum).natAbs < 10 ^ 21)
    (hsupply : ((genesis.maxSupply : Int) - pots.reserves).natAbs < 10 ^ 21) :
    ada genesis (polled (earlier ++ [events.foldl record db])) = .ok
      { circulating := decimal (circulation db + (events.map Event.change).sum)
        max := genesis.maxLovelaceSupply
        total := decimal (genesis.maxSupply - pots.reserves) } := by
  obtain ⟨hmoved, hrepresents⟩ := circulation_run hrecord h ha hrun
  generalize events.foldl record db = final at hpots hrewards hwithdrawals hmoved hrepresents ⊢
  have hutxos : utxos final.toTables ≠ [] := by
    intro hnone
    have hempty := hrepresents.unspent
    rw [hnone, List.map_nil, eq_comm, List.map_eq_nil_iff] at hempty
    exact hunspent hempty
  have hmax : ofNullable (some genesis.maxLovelaceSupply) = some (genesis.maxSupply : Int) := by
    rw [ofNullable, Option.bind_some, genesis.reads]
    rfl
  rw [← hmoved] at hcirculation ⊢
  have hcirculating := (circulating_eq_iff final).mpr ⟨⟨hutxos, hrewards, hwithdrawals⟩, hcirculation⟩
  have htotal := (signedToString_eq_decimal_iff _).mpr hsupply
  rw [ada, adaPots_polled earlier (getAdaPots_eq hpots)]
  simp only [hmax, ofNullable_plain, hcirculating]
  exact congrArg (fun total => Except.ok (AssetSupply.mk _ _ total)) htotal

end Runs

section Numbered

def accountRow (addresses : List StakeAddressRecord) (p : String × Nat) : StakeAddressRecord :=
  { id := fresh (addresses.map StakeAddressRecord.id) + p.2
    view := p.1 }

def newAccounts (addresses : List StakeAddressRecord) (accounts : List String) : List String :=
  accounts.dedup.filter fun account => !addresses.any fun a => decide (a.view = account)

def withAccounts (addresses : List StakeAddressRecord) (accounts : List String) : List StakeAddressRecord :=
  addresses ++ (newAccounts addresses accounts).zipIdx.map (accountRow addresses)

def accountId (addresses : List StakeAddressRecord) (account : String) : Nat :=
  ((addresses.find? fun a => decide (a.view = account)).map StakeAddressRecord.id).getD 0

def numberedPayments (db : AdaSupply.Ledger) (withdrawals rewards : List (String × Nat)) : AdaSupply.Ledger :=
  let addresses := withAccounts db.stakeAddress ((withdrawals ++ rewards).map Prod.fst)
  { db with
    stakeAddress := addresses
    withdrawal := db.withdrawal ++ withdrawals.map fun p => ⟨accountId addresses p.1, p.2⟩
    reward := db.reward ++ rewards.map fun p => ⟨accountId addresses p.1, p.2⟩ }

def numberedEvent (db : AdaSupply.Ledger) : Event → AdaSupply.Ledger
  | .transaction e withdrawals _ =>
      { numberedPayments db withdrawals [] with toTables := numbered db.toTables e }
  | .rewarded rewards => numberedPayments db [] rewards

variable {db : AdaSupply.Ledger} {addresses : List StakeAddressRecord} {accounts : List String}

theorem withAccounts_ids (h : (addresses.map StakeAddressRecord.id).Nodup) :
    ((withAccounts addresses accounts).map StakeAddressRecord.id).Nodup := by
  rw [withAccounts, List.map_append, List.nodup_append, List.map_map]
  refine ⟨h, nextIds_nodup (addresses.map StakeAddressRecord.id) (newAccounts addresses accounts), ?_⟩
  intro id hid id' hid'
  obtain ⟨p, -, rfl⟩ := List.mem_map.mp hid'
  exact Nat.ne_of_lt (lt_next hid p.2)

theorem withAccounts_named {account : String} (h : account ∈ accounts) :
    ∃ a ∈ withAccounts addresses accounts, a.view = account := by
  by_cases hknown : addresses.any (fun a => decide (a.view = account)) = true
  · obtain ⟨a, ha, hview⟩ := List.any_eq_true.mp hknown
    exact ⟨a, List.mem_append_left _ ha, of_decide_eq_true hview⟩
  · have hnew : account ∈ newAccounts addresses accounts := by
      rw [newAccounts, List.mem_filter, List.mem_dedup]
      exact ⟨h, by simpa using hknown⟩
    rw [← List.zipIdx_map_fst 0 (newAccounts addresses accounts)] at hnew
    obtain ⟨p, hp, hname⟩ := List.mem_map.mp hnew
    exact ⟨accountRow addresses p, List.mem_append_right _ (List.mem_map_of_mem hp), hname⟩

theorem pays_accountId {p : String × Nat} (h : p.1 ∈ accounts) :
    Pays (withAccounts addresses accounts) (accountId (withAccounts addresses accounts) p.1) p.2 p := by
  obtain ⟨a, ha, hview⟩ := withAccounts_named h
  obtain ⟨found, hfound⟩ := Option.isSome_iff_exists.mp
    (List.find?_isSome (p := fun a : StakeAddressRecord => decide (a.view = p.1)) |>.mpr
      ⟨a, ha, decide_eq_true hview⟩)
  refine ⟨rfl, found, List.mem_of_find?_eq_some hfound, ?_, by simpa using List.find?_some hfound⟩
  rw [accountId, hfound]
  rfl

theorem numberedPayments_adds (h : (db.stakeAddress.map StakeAddressRecord.id).Nodup)
    (withdrawals rewards : List (String × Nat)) :
    AddsPayments db withdrawals rewards (numberedPayments db withdrawals rewards) := by
  refine ⟨fun a ha => List.mem_append_left _ ha, withAccounts_ids h, ⟨_, rfl, ?_⟩, ⟨_, rfl, ?_⟩⟩
  · rw [List.forall₂_map_left_iff, List.forall₂_same]
    exact fun p hp => pays_accountId (List.mem_map_of_mem (List.mem_append_left _ hp))
  · rw [List.forall₂_map_left_iff, List.forall₂_same]
    exact fun p hp => pays_accountId (List.mem_map_of_mem (List.mem_append_right _ hp))

theorem numberedEvent_records : RecordsEvents numberedEvent := by
  intro db event hids hresolves
  cases event with
  | transaction e withdrawals deposit =>
      have hadds := numberedPayments_adds hids withdrawals []
      exact ⟨numbered_records db.toTables e hresolves, hadds.kept, hadds.ids, hadds.withdrawal, hadds.reward⟩
  | rewarded rewards => exact ⟨rfl, numberedPayments_adds hids [] rewards⟩

end Numbered

def noOutputs : AdaSupply.Ledger :=
  { firstEpoch with
    tx := []
    txOut := [] }

theorem represents_noOutputs : Represents noOutputs.toTables .empty :=
  NoTransactions.represents ⟨rfl, rfl, rfl, rfl, List.nodup_nil, no_policies⟩

theorem accounts_noOutputs : Accounts noOutputs :=
  ⟨List.nodup_singleton _, List.forall_mem_nil _, List.forall_mem_nil _⟩

def withdrawnReward : List Event :=
  [.rewarded [("stake_test1up", 1000)],
    .transaction ⟨⟨"t1", [], [⟨"addr1", 900, []⟩]⟩, 1, some 50⟩ [("stake_test1up", 950)] 0]

theorem withdrawnReward_supply :
    ada shelleyGenesis (polled ([] ++ [withdrawnReward.foldl numberedEvent noOutputs])) = .ok
      { circulating := decimal (circulation noOutputs + (withdrawnReward.map Event.change).sum)
        max := shelleyGenesis.maxLovelaceSupply
        total := decimal (shelleyGenesis.maxSupply - (14000000 : Nat)) } :=
  @supply_follows_events numberedEvent noOutputs .empty ⟨["t1"], [⟨("t1", 0), "addr1", 900, []⟩]⟩
    numberedEvent_records shelleyGenesis [] represents_noOutputs accounts_noOutputs withdrawnReward (by decide)
    { epochNo := 1, reserves := 14000000 } (by decide) (by decide) (by decide) (by decide) (by decide) (by decide)

end CardanoGraphql.SupplyConservation
