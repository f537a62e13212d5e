import Mathlib.Data.List.TakeWhile
import CardanoGraphql.JobSettlement

namespace CardanoGraphql.BatchIndependence

open HasuraBackgroundClient Worker WorkerBatch JobSettlement Fallible

/-- The database rejects the writes of some jobs; nothing else fails. -/
def rejecting (response : List AssetMetadata) (rejection : Job → Option String) : Externals :=
  { answering response with addAssetMetadata := fun job => (rejection job).elim (.ok ()) .error }

def rejected (response : List AssetMetadata) (rejection : Job → Option String) (job : Job) : Bool :=
  (entryOf response job.assetId).isSome && (rejection job).isSome

def otherJobs (response : List AssetMetadata) (rejection : Job → Option String) (jobs : List Job) : List Job :=
  jobs.filter fun job => !rejected response rejection job

/-- What the registry answers when it is asked for fewer assets. -/
def responseFor (response : List AssetMetadata) (jobs : List Job) : List AssetMetadata :=
  response.filter fun item => decide (item.subject ∈ jobs.map Job.assetId)

def eventsOfJob (job : Job) (events : List Event) : List Event :=
  events.filter fun event => decide (event.job = job)

section Independence

variable (hash : AssetMetadata → String) (metadataUpdateInterval : Option Nat)

def eventsOf (response : List AssetMetadata) (rejection : Job → Option String) (table : AssetTable)
    (jobs : List Job) : List Event :=
  (exec (subscriptionHandler (rejecting response rejection) hash metadataUpdateInterval jobs)
    ⟨table.rows, []⟩).events

/-- The other jobs of the batch are handled as they are without those rejected. -/
def Independent (response : List AssetMetadata) (rejection : Job → Option String) (table : AssetTable)
    (jobs : List Job) : Prop :=
  ∀ job ∈ jobs, rejected response rejection job = false →
    eventsOfJob job (eventsOf hash metadataUpdateInterval response rejection table jobs) =
      eventsOfJob job (eventsOf hash metadataUpdateInterval
        (responseFor response (otherJobs response rejection jobs)) rejection table
        (otherJobs response rejection jobs))

theorem upToFailure_flatMap {α β : Type} {result : α → Except String PUnit} {p : α → Bool} {f : α → List β}
    {xs : List α} (hok : ∀ x ∈ xs, p x = true → result x = .ok ())
    (herror : ∀ x ∈ xs, p x = false → (∃ e, result x = .error e) ∧ f x = []) :
    (upToFailure result xs).flatMap f = (xs.takeWhile p).flatMap f := by
  induction xs with
  | nil => rfl
  | cons x xs ih =>
      obtain ⟨hx, hrest⟩ := List.forall_mem_cons.mp hok
      obtain ⟨hx', hrest'⟩ := List.forall_mem_cons.mp herror
      rw [upToFailure]
      cases hp : p x with
      | true => rw [hx hp, List.takeWhile_cons_of_pos hp, List.flatMap_cons, List.flatMap_cons, ih hrest hrest']
      | false =>
          obtain ⟨⟨e, he⟩, hnil⟩ := hx' hp
          rw [he, List.takeWhile_cons_of_neg (by simp [hp]), List.flatMap_singleton, hnil]
          rfl

variable (response : List AssetMetadata) (rejection : Job → Option String)

theorem rejecting_addAssetMetadata (job : Job) :
    (rejecting response rejection).addAssetMetadata job = (rejection job).elim (.ok ()) .error := rfl

theorem rejecting_publishAfter (job : Job) : (rejecting response rejection).publishAfter job = .ok () := rfl

def jobEvents (job : Job) : List Event :=
  performEvents (rejecting response rejection) metadataUpdateInterval job
    (some (handleJob hash response [] job.assetId))

theorem performResult_rejecting (job : Job) :
    performResult (rejecting response rejection) job (some (handleJob hash response [] job.assetId)) =
      if rejected response rejection job then .error ((rejection job).getD "") else .ok () := by
  rw [performResult_eq, callsFor, rejected, rejecting_addAssetMetadata, rejecting_publishAfter]
  cases (entryOf response job.assetId).isSome with
  | false => rfl
  | true => cases rejection job <;> rfl

theorem jobEvents_eq_nil_iff (job : Job) :
    jobEvents hash metadataUpdateInterval response rejection job = [] ↔
      rejected response rejection job = true := by
  rw [jobEvents, rejected]
  cases hentry : entryOf response job.assetId with
  | none =>
      rw [handleJob_none hash response hentry]
      simp [performEvents]
  | some metadata =>
      rw [handleJob_some hash response hentry, if_neg (by simp), performEvents, rejecting_addAssetMetadata,
        rejecting_publishAfter]
      cases rejection job <;> simp

theorem eventsOf_batch (table : AssetTable) (batch : Batch) :
    eventsOf hash metadataUpdateInterval response rejection table batch.jobs =
      (batch.jobs.takeWhile fun job => !rejected response rejection job).flatMap
        (jobEvents hash metadataUpdateInterval response rejection) := by
  rw [eventsOf, exec_subscriptionHandler _ _ _ rfl rfl, World.record, List.nil_append]
  refine (eventsFrom_batch _ hash metadataUpdateInterval response table batch _).trans ?_
  apply @upToFailure_flatMap Job Event _ (fun job => !rejected response rejection job)
  · intro job _ hok
    rw [performResult_rejecting, if_neg (by simpa using hok)]
  · intro job _ herror
    have hrejected : rejected response rejection job = true := by simpa using herror
    rw [performResult_rejecting, if_pos hrejected]
    exact ⟨⟨_, rfl⟩, (jobEvents_eq_nil_iff hash metadataUpdateInterval response rejection job).mpr hrejected⟩

theorem entryOf_responseFor {jobs : List Job} {job : Job} (hjob : job ∈ jobs) :
    entryOf (responseFor response jobs) job.assetId = entryOf response job.assetId := by
  have hasked : job.assetId ∈ jobs.map Job.assetId := List.mem_map_of_mem hjob
  rw [entryOf, entryOf, responseFor, List.find?_filter]
  congr 1
  funext item
  by_cases hid : item.subject = job.assetId
  · simp [hid, hasked]
  · simp [hid]

theorem eventsOf_others (table : AssetTable) (batch : Batch) :
    eventsOf hash metadataUpdateInterval (responseFor response (otherJobs response rejection batch.jobs))
        rejection table (otherJobs response rejection batch.jobs) =
      (otherJobs response rejection batch.jobs).flatMap
        (jobEvents hash metadataUpdateInterval response rejection) := by
  have hentry : ∀ job ∈ otherJobs response rejection batch.jobs,
      entryOf (responseFor response (otherJobs response rejection batch.jobs)) job.assetId =
        entryOf response job.assetId := fun job hjob => entryOf_responseFor response hjob
  have hnone : ∀ job ∈ otherJobs response rejection batch.jobs, (!rejected (responseFor response
      (otherJobs response rejection batch.jobs)) rejection job) = true := by
    intro job hjob
    rw [rejected, hentry job hjob]
    exact (List.mem_filter.mp hjob).2
  have hbatch := eventsOf_batch hash metadataUpdateInterval
    (responseFor response (otherJobs response rejection batch.jobs)) rejection table
    ⟨otherJobs response rejection batch.jobs, fun job hjob => batch.bare job (List.mem_filter.mp hjob).1⟩
  refine hbatch.trans ?_
  rw [List.takeWhile_eq_self_iff.mpr hnone]
  apply List.flatMap_congr
  intro job hjob
  have hsame : handleJob hash (responseFor response (otherJobs response rejection batch.jobs)) []
      job.assetId = handleJob hash response [] job.assetId := by
    have h := hentry job hjob
    rw [entryOf, entryOf] at h
    rw [handleJob, handleJob, h]
  rw [jobEvents, jobEvents, hsame]
  rfl

theorem eventsOfJob_length (job : Job) (jobs : List Job) :
    (eventsOfJob job (jobs.flatMap (jobEvents hash metadataUpdateInterval response rejection))).length =
      jobs.count job * (jobEvents hash metadataUpdateInterval response rejection job).length := by
  induction jobs with
  | nil => simp [eventsOfJob]
  | cons other jobs ih =>
      have hlabel : ∀ event ∈ jobEvents hash metadataUpdateInterval response rejection other,
          event.job = other :=
        performEvents_job (rejecting response rejection) metadataUpdateInterval other _
      rw [eventsOfJob] at ih
      rw [eventsOfJob, List.flatMap_cons, List.filter_append, List.length_append, ih, List.count_cons,
        Nat.add_mul, Nat.add_comm]
      congr 1
      by_cases hsame : other = job
      · rw [List.filter_eq_self.mpr fun event hevent => decide_eq_true ((hlabel event hevent).trans hsame),
          hsame]
        simp
      · rw [List.filter_eq_nil_iff.mpr fun event hevent h =>
          hsame ((hlabel event hevent).symm.trans (of_decide_eq_true h))]
        simp [hsame]

/-- The jobs of a batch are independent exactly where no other job comes after a rejected one. -/
theorem independent_iff (table : AssetTable) (batch : Batch) :
    Independent hash metadataUpdateInterval response rejection table batch.jobs ↔
      ∀ job ∈ batch.jobs.dropWhile fun job => !rejected response rejection job,
        rejected response rejection job = true := by
  have hsplit : otherJobs response rejection batch.jobs =
      (batch.jobs.takeWhile fun job => !rejected response rejection job) ++
        otherJobs response rejection (batch.jobs.dropWhile fun job => !rejected response rejection job) := by
    conv_lhs => rw [← List.takeWhile_append_dropWhile (p := fun job => !rejected response rejection job)
      (l := batch.jobs)]
    rw [otherJobs, List.filter_append,
      List.filter_eq_self.mpr fun job hjob => List.mem_takeWhile_imp (p := fun job => !rejected response rejection job) hjob]
    rfl
  constructor
  · intro h job hjob
    by_contra hnot
    have hother : rejected response rejection job = false := by simpa using hnot
    have hmem : job ∈ otherJobs response rejection
        (batch.jobs.dropWhile fun job => !rejected response rejection job) :=
      List.mem_filter.mpr ⟨hjob, by rw [hother]; rfl⟩
    have hevents := congrArg List.length (h job ((List.dropWhile_sublist _).mem hjob) hother)
    rw [eventsOf_batch, eventsOf_others, eventsOfJob_length, eventsOfJob_length] at hevents
    have hpos : 0 < (jobEvents hash metadataUpdateInterval response rejection job).length := by
      rw [List.length_pos_iff]
      intro hnil
      exact hnot ((jobEvents_eq_nil_iff hash metadataUpdateInterval response rejection job).mp hnil)
    have hcount := Nat.eq_of_mul_eq_mul_right hpos hevents
    rw [hsplit, List.count_append] at hcount
    have hmore := List.count_pos_iff.mpr hmem
    omega
  · intro h job _ _
    have hnil : otherJobs response rejection
        (batch.jobs.dropWhile fun job => !rejected response rejection job) = [] := by
      rw [otherJobs, List.filter_eq_nil_iff]
      intro job hjob
      rw [h job hjob]
      exact Bool.false_ne_true
    rw [eventsOf_batch, eventsOf_others, hsplit, hnil, List.append_nil]

end Independence

def mixedBatch : Batch where
  jobs := [⟨1, .fetchInitial, "cafe"⟩, ⟨2, .fetchInitial, "beef"⟩]
  bare := by
    intro job hjob
    rcases List.mem_cons.mp hjob with rfl | hjob
    · exact ne_withHexPrefix (by decide)
    · rw [List.mem_singleton.mp hjob]
      exact ne_withHexPrefix (by decide)

def longTicker : AssetMetadata := { namedEntry "cafe" "Cafe" with ticker := some ⟨"CAFECAFECAFE", []⟩ }

def tickerTooLong (job : Job) : Option String :=
  if job.id = 1 then some "value too long for type character varying(9)" else none

def bothInserted : AssetTable where
  rows := insertAssets [] [⟨"cafe", some "", 20, "asset1cafe", "cafe"⟩, ⟨"beef", some "", 20, "asset1beef", "beef"⟩]
  key := by decide
  hex := by
    intro row hrow
    rcases List.mem_cons.mp hrow with rfl | hrow
    · exact ⟨"cafe", rfl⟩
    · rw [List.mem_singleton.mp hrow]
      exact ⟨"beef", rfl⟩

theorem mixedBatch_blocked :
    eventsOf AssetMetadata.subject none [longTicker, namedEntry "beef" "Beef"] tickerTooLong bothInserted
        mixedBatch.jobs = [] ∧
      ¬ Independent AssetMetadata.subject none [longTicker, namedEntry "beef" "Beef"] tickerTooLong
        bothInserted mixedBatch.jobs := by
  have hnone : eventsOf AssetMetadata.subject none [longTicker, namedEntry "beef" "Beef"] tickerTooLong
      bothInserted mixedBatch.jobs = [] := by
    decide +kernel
  refine ⟨hnone, fun h => ?_⟩
  have hjob := h ⟨2, .fetchInitial, "beef"⟩ (by decide) (by decide)
  rw [hnone] at hjob
  exact absurd hjob (by decide +kernel)

end CardanoGraphql.BatchIndependence
