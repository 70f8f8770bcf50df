import BroadcastPool.Proofs.Accepted
import BroadcastPool.Proofs.Import
import BroadcastPool.Proofs.VirtualBlock.Ingested

/-!
# `BroadcastPool.Proofs.LockColumn`: where the locktime column of a row comes from

A row gets its `nlocktime` column when it is inserted, and no statement writes it afterwards.
Imports leave it at zero, whatever the transaction has signed. A wallet's broadcast stores the
signed lock, or the target that it has captured from the armed virtual block of Liana.

`LockSource` are the three cases, and `Activity.lockSource` which of them a piece of work is in,
from what it has read. `lockSourceOf` finds the piece of work that has inserted a row, among
everything that was done. `fits_of_reached` is the result on runs: in every interleaving from an
empty table, each row has such a source, and its column is the one of this source for the
transaction that it holds.
-/

set_option autoImplicit false

namespace BroadcastPool

open Effects

/-- What a new row gets as its locktime. -/
inductive LockSource
  /-- An import, by the dashboard or by the command line: nothing. -/
  | imported
  /-- A wallet's broadcast without a captured target: the signed lock. -/
  | signed
  /-- A broadcast of an armed Liana: the target of the virtual block. -/
  | virtualBlock (target : Nat)
deriving DecidableEq, Repr

/-- The row has the column of the source. -/
def LockSource.Fits (env : Env) (r : Row) : LockSource → Prop
  | imported => r.nlocktime = some 0
  | signed => ∃ tx, decodeTx env (r.hex env) = .ok tx ∧ r.nlocktime = some (tx.lockTime : Int)
  | virtualBlock target => r.nlocktime = some (target : Int)

/-- The source of the row that `handle_broadcast` asks for. -/
def captureSource : Option Nat → LockSource
  | none => .signed
  | some target => .virtualBlock target

/-- The source of the rows that a piece of work inserts, after what it has read. -/
def Activity.lockSource (seen : List (Seen Act Act.Res)) : Activity → LockSource
  | ingest .. => captureSource (targetOf (capturesIn seen))
  | _ => .imported

/-- The source of a row by its id: the one of the work that has inserted it. -/
def lockSourceOf (deeds : List WorkDeed) (id : String) : Option LockSource :=
  deeds.findSome? fun d =>
    if insertedId d.toPerformed = some id then some (d.job.lockSource d.seen) else none

/-- The imports of a piece of work bring no locktime. The dashboard and the command line ask for
none (`newTx_nlocktime`, `importRawTxHex_nlocktime`). -/
def Activity.ImportsUnlocked : Activity → Prop
  | importTx newTx => newTx.nlocktime = none
  | command _ _ _ (.importTxs txs) => ∀ newTx ∈ txs, newTx.nlocktime = none
  | _ => True

theorem newTx_nlocktime (req : Api.ImportRequest) (network : String) :
    (req.newTx network).nlocktime = none := rfl

theorem importRawTxHex_nlocktime {hex network : String} {label : Option String}
    {newTx : NewBroadcastTx} (h : importRawTxHex hex network label = .ok newTx) :
    newTx.nlocktime = none := by
  unfold importRawTxHex at h
  split at h
  · cases h
  · cases h
    rfl

section
variable {env : Env}

/-! ### What is inserted -/

/-- An inserted row has the column of an import. -/
def InsertsUnlocked (a : Act) : Prop := ∀ row ∈ a.inserted?, row.nlocktime = some 0

theorem insertsUnlocked_of_not_inserts {a : Act} (h : a.inserted? = none) : InsertsUnlocked a := by
  intro row hrow
  rw [h] at hrow
  cases hrow

theorem insertsUnlocked_of_work {a : Act} (h : a.Work InsertsUnlocked) : InsertsUnlocked a := by
  rcases h with h | h
  · cases a <;> first | exact insertsUnlocked_of_not_inserts rfl | cases h
  · exact h

/-- A request without a locktime. -/
theorem insertsUnlocked_of_isNewRow {newTx : NewBroadcastTx} {row : Row}
    (hnone : newTx.nlocktime = none) (hnew : IsNewRow env newTx row) :
    InsertsUnlocked (.insert row) := by
  intro row' hrow
  cases hrow
  obtain ⟨-, id, now, encTxHex, encDest, encSource, rfl⟩ := hnew
  show some ((newTx.nlocktime.getD 0 : Nat) : Int) = some 0
  rw [hnone]
  rfl

/-- A piece of work whose requests have no locktime. -/
theorem allows_insertsUnlocked {a : Activity}
    (h : ∀ newTx, a.Requests newTx → newTx.nlocktime = none) : a.Allows env InsertsUnlocked where
  update _ _ _ := insertsUnlocked_of_not_inserts rfl
  mark _ _ _ _ _ := insertsUnlocked_of_not_inserts rfl
  encrypt _ _ _ _ _ := insertsUnlocked_of_not_inserts rfl
  insert newTx hnewTx _ hnew := insertsUnlocked_of_isNewRow (h newTx hnewTx) hnew
  delete _ := insertsUnlocked_of_not_inserts rfl
  archive _ _ _ := insertsUnlocked_of_not_inserts rfl
  storePending _ _ _ _ := insertsUnlocked_of_not_inserts rfl
  mergePending _ _ _ _ := insertsUnlocked_of_not_inserts rfl
  indexerBroadcast _ _ := insertsUnlocked_of_not_inserts rfl
  rpcBroadcast _ _ := insertsUnlocked_of_not_inserts rfl
  clearSafeMode := insertsUnlocked_of_not_inserts rfl
  startProcess _ _ _ _ _ := insertsUnlocked_of_not_inserts rfl

/-- The work is part of a wallet's broadcast. -/
def Activity.isIngest : Activity → Bool
  | ingest .. => true
  | _ => false

/-- Any other work asks for what is imported. -/
theorem Activity.ImportsUnlocked.requests {a : Activity} (h : a.ImportsUnlocked)
    (hother : a.isIngest = false) (newTx : NewBroadcastTx) (hnewTx : a.Requests newTx) :
    newTx.nlocktime = none := by
  cases a with
  | importTx requested =>
    cases hnewTx
    exact h
  | command rpc indexer config c =>
    cases c with
    | importTxs txs => exact h newTx hnewTx
    | _ => cases hnewTx
  | ingest txHex source => cases hother
  | _ => cases hnewTx

/-- What a piece of work inserts, after what it has read. -/
def InsertsFrom (env : Env) (a : Activity) (seen : List (Seen Act Act.Res)) (act : Act) : Prop :=
  match a with
  | .ingest txHex source => StoresCapture env txHex source seen act
  | _ => InsertsUnlocked act

theorem insertsFrom_of_not_isIngest {a : Activity} (h : a.isIngest = false) :
    InsertsFrom env a = fun _ => InsertsUnlocked := by
  cases a with
  | ingest txHex source => cases h
  | _ => rfl

/-- Every piece of work, on each of its paths. -/
theorem onPaths_insertsFrom (a : Activity) (h : a.ImportsUnlocked) :
    (a.prog env).OnPaths anyAnswer (InsertsFrom env a) [] := by
  by_cases hingest : a.isIngest = true
  · cases a with
    | ingest txHex source => exact onPaths_ingestTask txHex source
    | _ => cases hingest
  · have hother : a.isIngest = false := by simpa using hingest
    rw [insertsFrom_of_not_isIngest hother]
    refine Prog.Keeps.onPaths (I := fun _ => True) (Prog.keeps_of_uses
      (fun act hact seen _ _ => ⟨insertsUnlocked_of_work hact, fun _ _ _ => trivial⟩) ?_) trivial
    exact work_everyActivity a (allows_insertsUnlocked (h.requests hother))
      (insertsUnlocked_of_not_inserts rfl) (fun _ => insertsUnlocked_of_not_inserts rfl)
      fun _ => insertsUnlocked_of_not_inserts rfl

/-- A wallet's broadcast inserts a row for the text that came in. -/
theorem onPaths_insertsHex (hseal : env.SealOpens) (a : Activity) :
    (a.prog env).OnPaths anyAnswer
      (fun _ act => ∀ txHex source, a = .ingest txHex source →
        InsertsHex env (Text.trim txHex) act) [] := by
  by_cases hingest : ∃ txHex source, a = .ingest txHex source
  · obtain ⟨txHex, source, rfl⟩ := hingest
    refine Prog.Keeps.onPaths (I := fun _ => True) (Prog.keeps_of_uses
      (fun act hact seen _ _ => ⟨?_, fun _ _ _ => trivial⟩)
      (work_ingestTask_hex hseal txHex source)) trivial
    rintro txHex' source' ⟨⟩
    rcases hact with hact | hact
    · rintro row rfl
      cases hact
    · exact hact
  · refine Prog.OnPaths.mono (fun seen act _ txHex source ha => ?_) (grounded_activity hseal a)
    exact absurd ⟨txHex, source, ha⟩ hingest

/-- The column of the row that `handle_broadcast` asks for. -/
theorem fits_of_asked {txHex source network : String} {tx : Transaction}
    {plan : BroadcastMode × Option DateTime} {target : Option Nat} {row : Row}
    (hdecode : decodeTx env (Text.trim txHex) = .ok tx) (hhex : row.hex env = Text.trim txHex)
    (hnew : IsNewRow env (ingestRequest (Text.trim txHex) network source tx plan target) row) :
    (captureSource target).Fits env row := by
  have hcolumn : row.nlocktime = some (((ingestRequest (Text.trim txHex) network source tx plan
      target).nlocktime.getD 0 : Nat) : Int) := by
    obtain ⟨-, id, now, encTxHex, encDest, encSource, rfl⟩ := hnew
    rfl
  cases target with
  | some n => exact hcolumn
  | none =>
    refine ⟨tx, by rw [hhex, hdecode], hcolumn.trans ?_⟩
    -- A lock of zero is asked for as none, and stored as zero.
    unfold ingestRequest
    by_cases hzero : tx.lockTime = 0
    · simp [hzero]
    · simp [Nat.pos_of_ne_zero hzero]

/-- A row that a piece of work inserts has the column of its source. -/
theorem fits_of_inserted {a : Activity} {seen : List (Seen Act Act.Res)} {row : Row}
    (hinserts : InsertsFrom env a seen (.insert row))
    (hhex : ∀ txHex source, a = .ingest txHex source →
      InsertsHex env (Text.trim txHex) (.insert row)) : (a.lockSource seen).Fits env row := by
  cases a with
  | ingest txHex source =>
    obtain ⟨tx, network, plan, hdecode, hnew⟩ := StoresCapture.asked hinserts row rfl
    exact fits_of_asked hdecode (hhex txHex source rfl row rfl) hnew
  | _ => exact hinserts row rfl

/-! ### Runs -/

theorem lockSourceOf_append (ds ds' : List WorkDeed) (id : String) :
    lockSourceOf (ds ++ ds') id = (lockSourceOf ds id).or (lockSourceOf ds' id) :=
  List.findSome?_append

/-- An id that is not in the record has no source. -/
theorem lockSourceOf_eq_none {w : World} {ds : List WorkDeed} {id : String}
    (h : id ∉ (recordOf env w ds).ids) : lockSourceOf ds id = none := by
  rw [recordOf_ids] at h
  refine List.findSome?_eq_none_iff.2 fun d hd => if_neg fun hid => h ?_
  exact List.mem_append_right _ (List.mem_filterMap.2 ⟨_, List.mem_map_of_mem hd, hid⟩)

theorem LockSource.Fits.of_same {r r' : Row} {source : LockSource} (h : source.Fits env r)
    (hhex : r'.hex env = r.hex env) (hcolumn : r'.nlocktime = r.nlocktime) :
    source.Fits env r' := by
  cases source with
  | signed =>
    obtain ⟨tx, hdecode, hlock⟩ := h
    exact ⟨tx, by rw [hhex, hdecode], by rw [hcolumn, hlock]⟩
  | _ => exact hcolumn.trans h

/-- The invariant: what was read is still known, and every row has the column of the work that
has inserted it. -/
structure LocksFit (env : Env) (w₀ : World) (before : List WorkDeed) (w : World) : Prop where
  known : KnownHold env (recordOf env w₀ before) w
  fits : ∀ r ∈ w.pool, ∃ source ∈ lockSourceOf before r.id, source.Fits env r

theorem locksFit_step {w₀ : World} {before : List WorkDeed} {d : WorkDeed}
    (h : LocksFit env w₀ before d.state) (hgrounded : Grounded env d.seen d.act)
    (hseen : d.seen = ownAnswers (World.exec env) d.number before)
    (hfresh : ∀ id ∈ insertedId d.toPerformed, id ∉ (recordOf env w₀ before).ids)
    (hfits : ∀ row, d.act = .insert row → (d.job.lockSource d.seen).Fits env row) :
    LocksFit env w₀ (before ++ [d]) (World.exec env d.act d.state).2 := by
  have hreads : ∀ k ∈ readsOf env d.seen, k ∈ (recordOf env w₀ before).reads := by
    rw [hseen]
    exact fun k => mem_recordOf_reads
  refine ⟨?_, fun r' hr' => ?_⟩
  · rw [recordOf_concat]
    exact knownHold_step h.known hgrounded hreads hfresh
  rw [lockSourceOf_append]
  rcases exec_leftAs h.known hgrounded hreads hr' with ⟨r, hr, hleft⟩ | ⟨ha, -⟩
  · obtain ⟨source, hsource, hfit⟩ := h.fits r hr
    refine ⟨source, ?_, hfit.of_same hleft.hex hleft.nlocktime⟩
    rw [hleft.id, Option.mem_def.1 hsource]
    rfl
  · -- The row comes in, and its id has no source yet.
    have hid : insertedId d.toPerformed = some r'.id := by
      unfold insertedId
      rw [ha]
    refine ⟨d.job.lockSource d.seen, ?_, hfits r' ha⟩
    rw [lockSourceOf_eq_none (hfresh r'.id hid)]
    simp [lockSourceOf, hid]

/-- In every interleaving from an empty table, with any crash or error of the database, every row
has the column of the work that has inserted it. -/
theorem fits_of_reached (hseal : env.SealOpens) {w : World} (hempty : w.pool = [])
    {os : List (Order Activity)} (himports : ∀ a, Order.start a ∈ os → a.ImportsUnlocked)
    (hids : DistinctIds w ((workDeeds env w os).map Deed.toPerformed)) :
    ∀ r ∈ (Config.exec (World.exec env) ⟨w, []⟩ (workSchedule env os)).state.pool,
      ∃ source ∈ lockSourceOf (workDeeds env w os) r.id, source.Fits env r := by
  have hgrounded : ∀ d ∈ workDeeds env w os, Grounded env d.seen d.act :=
    Config.required_of_deed (anyAnswer_exec env) fun a _ => grounded_activity hseal a
  have hinserts : ∀ d ∈ workDeeds env w os, InsertsFrom env d.job d.seen d.act :=
    Config.required_of_deed (anyAnswer_exec env) fun a ha => onPaths_insertsFrom a (himports a ha)
  have hhex : ∀ d ∈ workDeeds env w os, ∀ txHex source, d.job = .ingest txHex source →
      InsertsHex env (Text.trim txHex) d.act :=
    Config.required_of_deed (anyAnswer_exec env) fun a _ => onPaths_insertsHex hseal a
  have hstart : LocksFit env w [] w :=
    ⟨knownHold_start (List.nodup_append.1 hids).1, fun r hr => by simp [hempty] at hr⟩
  have hend : LocksFit env w (workDeeds env w os)
      (Config.exec (World.exec env) ⟨w, []⟩ (workSchedule env os)).state := by
    refine Config.exec_deeds hstart fun before d after hsplit hI => ?_
    have hd : d ∈ workDeeds env w os := Config.mem_of_split hsplit
    refine locksFit_step hI (hgrounded d hd) (Config.seen_eq_own hsplit)
      (fresh_of_distinctIds hids hsplit) fun row hact => ?_
    have hmeets := hinserts d hd
    have htext := hhex d hd
    rw [hact] at hmeets htext
    exact fits_of_inserted hmeets htext
  exact hend.fits

end

end BroadcastPool
