import BroadcastPool.Life
import BroadcastPool.Proofs.Accepted

/-!
# `BroadcastPool.Proofs.TxidColumn`: the txid of a row is the one of its transaction

The txid column is empty until a row is handed over. Then `mark_broadcast` stores what the backend
has answered, and a backend that takes a transaction answers with its txid
(`Env.AnswersTxids`). The column is read again at a start of the process, when a row that was
handed over once has been scheduled again.

`Marks` says of a path that a stored txid is the one of the text which the program has read under
the id of the row. `marks_activity` shows it for every piece of work. `own_txids` follows it
through a run: the row still holds the text that was read (`KnownHold`).
-/

set_option autoImplicit false

namespace BroadcastPool

open Effects

/-- A backend that takes a transaction answers with its txid. -/
def Env.AnswersTxids (env : Env) : Prop :=
  ∀ tick txHex txid, env.indexerBroadcast tick txHex = .ok txid ∨
    env.rpcBroadcast tick txHex = .ok txid → computeTxid env txHex = .ok txid

/-- The row has no txid, or the one of its transaction. -/
def Row.OwnTxid (env : Env) (r : Row) : Prop :=
  ∀ txid ∈ r.txid, computeTxid env (r.hex env) = .ok txid

/-- A backend takes a transaction with its txid, and a row that is read by its id has this id. -/
def AnswersOwn (env : Env) : (a : Act) → a.Res → Prop
  | .select (.byId id), answer => ∀ txs, answer = .ok txs → ∀ tx ∈ txs, tx.id = id
  | .indexerBroadcast tx, verdict | .rpcBroadcast tx, verdict =>
      ∀ txid, verdict = .ok txid → computeTxid env tx.txHex = .ok txid
  | _, _ => True

/-- A new row has no txid, and a txid that is stored is the one of the text that the program has
read under the id of the row. -/
structure Marks (env : Env) (seen : List (Seen Act Act.Res)) (a : Act) : Prop where
  insert : ∀ row, a = .insert row → row.txid = none
  mark : ∀ id txid fee now, a = .update (.broadcast id txid fee now) →
    ∃ hex, (id, hex) ∈ readsOf env seen ∧ computeTxid env hex = .ok txid

section
variable {α : Type} {env : Env} {reads : List (String × String)}

theorem answersOwn_exec (h : env.AnswersTxids) (a : Act) (w : World) :
    AnswersOwn env a (World.exec env a w).1 := by
  cases a
  case select q =>
    cases q with
    | byId id =>
      intro txs hok tx htx
      rcases exec_select env w (.byId id) with ⟨e, hexec⟩ | ⟨txs', hmap, hexec⟩
      · rw [hexec] at hok
        cases hok
      · rw [hexec] at hok
        cases hok
        obtain ⟨r, hr, hreads⟩ := mem_of_mapM_eq_ok hmap tx htx
        have hselects := (mem_selectRows hr).2
        rw [(mapBroadcastRow_spec hreads).id]
        simpa [Query.selects] using hselects
    | _ => trivial
  case indexerBroadcast tx => exact fun txid hok => h w.tick tx.txHex txid (Or.inl hok)
  case rpcBroadcast tx => exact fun txid hok => h w.tick tx.txHex txid (Or.inr hok)
  all_goals trivial

abbrev marksContract (env : Env) : Contract Act Act.Res (List (Seen Act Act.Res)) :=
  pathContract (AnswersOwn env) (Marks env)

/-! ### Work that leaves the column alone -/

/-- The action stores no txid. -/
def Act.LeavesTxids (a : Act) : Prop :=
  (∀ row, a = .insert row → row.txid = none) ∧ ∀ u, a = .update u → u.isMark = false

theorem leavesTxids_of_writesPool {a : Act} (h : a.writesPool = false) : a.LeavesTxids := by
  constructor
  all_goals
    rintro _ rfl
    cases h

theorem leavesTxids_update {u : Update} (hu : u.isMark = false) : (Act.update u).LeavesTxids := by
  refine ⟨fun row h => ?_, fun u' h => ?_⟩
  · cases h
  · cases h
    exact hu

theorem leavesTxids_of_work {a : Act} (h : a.Work Act.LeavesTxids) : a.LeavesTxids := by
  rcases h with h | h
  · constructor
    all_goals
      rintro _ rfl
      cases h
  · exact h

theorem marks_of_leavesTxids {seen : List (Seen Act Act.Res)} {a : Act} (h : a.LeavesTxids) :
    Marks env seen a where
  insert := h.1
  mark id txid fee now ha := by cases h.2 _ ha

theorem keeps_leaving {p : M α} (hp : IsWork Act.LeavesTxids p) :
    p.Keeps (marksContract env) (HasRead env reads) :=
  keeps_hasRead (Prog.Uses.mono
    (fun _ ha _ _ => marks_of_leavesTxids (leavesTxids_of_work ha)) hp)

theorem allows_leavesTxids {a : Activity} (ha : a.broadcasts = false) :
    a.Allows env Act.LeavesTxids where
  update _ _ hu := leavesTxids_update hu
  mark h := by
    rw [ha] at h
    cases h
  encrypt _ _ _ _ _ := leavesTxids_update rfl
  insert newTx _ row hnew := by
    refine ⟨fun row' h => ?_, fun u h => ?_⟩
    · cases h
      obtain ⟨-, id, now, encTxHex, encDest, encSource, rfl⟩ := hnew
      rfl
    · cases h
  delete _ := ⟨fun _ h => (by cases h), fun _ h => (by cases h)⟩
  archive _ _ _ := ⟨fun _ h => (by cases h), fun _ h => (by cases h)⟩
  storePending _ _ _ _ := leavesTxids_of_writesPool rfl
  mergePending _ _ _ _ := leavesTxids_of_writesPool rfl
  indexerBroadcast _ _ := leavesTxids_of_writesPool rfl
  rpcBroadcast _ _ := leavesTxids_of_writesPool rfl
  clearSafeMode := leavesTxids_of_writesPool rfl
  startProcess _ _ _ _ _ := leavesTxids_of_writesPool rfl

/-! ### Work that stores what a backend has answered -/

theorem gives_indexerBroadcast (tx : BroadcastTx) :
    Prog.Gives (marksContract env) (HasRead env reads)
      (fun verdict => ∀ txid, verdict = .ok txid → computeTxid env tx.txHex = .ok txid)
      (perform (.indexerBroadcast tx)) := by
  intro seen hseen
  refine Prog.wp_perform_path _ _ _ (marks_of_leavesTxids (leavesTxids_of_writesPool rfl))
    fun verdict hverdict => ⟨hseen.append _, fun _ h => ?_⟩
  cases h
  exact hverdict

theorem gives_rpcBroadcast (tx : BroadcastTx) :
    Prog.Gives (marksContract env) (HasRead env reads)
      (fun txid => computeTxid env tx.txHex = .ok txid)
      (orRaise (perform (.rpcBroadcast tx))) := by
  intro seen hseen
  refine (wp_orRaise _ _ _).2 (Prog.wp_perform_path _ _ _
    (marks_of_leavesTxids (leavesTxids_of_writesPool rfl)) fun verdict hverdict => ?_)
  cases verdict with
  | ok txid =>
    refine ⟨hseen.append _, fun _ h => ?_⟩
    cases h
    exact hverdict txid rfl
  | error e => exact ⟨hseen.append _, fun _ h => by cases h⟩

/-- The indexer's verdict, of the daemon or of the command line. -/
theorem gives_verdict {tx : BroadcastTx} {verdict : M (Option (Except String String))}
    {rest : Option (Except String String) → M String}
    (hverdict : Prog.Gives (marksContract env) (HasRead env reads)
      (fun v => ∀ txid, v = some (.ok txid) → computeTxid env tx.txHex = .ok txid) verdict)
    (hok : ∀ txid, rest (some (.ok txid)) = .ret txid)
    (hrest : ∀ v, (∀ txid, v ≠ some (.ok txid)) →
      Prog.Gives (marksContract env) (HasRead env reads)
        (fun txid => computeTxid env tx.txHex = .ok txid) (rest v)) :
    Prog.Gives (marksContract env) (HasRead env reads)
      (fun txid => computeTxid env tx.txHex = .ok txid) (verdict.bind rest) := by
  refine Prog.gives_bind hverdict fun v hv => ?_
  by_cases htaken : ∃ txid, v = some (.ok txid)
  · obtain ⟨txid, rfl⟩ := htaken
    rw [hok]
    exact Prog.gives_ret (hv txid rfl)
  · exact hrest v fun txid h => htaken ⟨txid, h⟩

theorem gives_broadcastTransaction (p : Proc) (tx : BroadcastTx) :
    Prog.Gives (marksContract env) (HasRead env reads)
      (fun txid => computeTxid env tx.txHex = .ok txid) (broadcastTransaction p tx) := by
  have hread : ∀ {a : Act}, a.isBasic = true → Prog.Gives (marksContract env) (HasRead env reads)
      (fun _ => True) (perform a) := fun h => (keeps_leaving (work_basic h)).gives
  refine gives_verdict ?_ (fun txid => rfl) fun v hv => ?_
  · refine Prog.gives_bind (hread rfl) fun health _ => ?_
    split
    · refine Prog.gives_bind (hread rfl) fun hasIndexer _ => ?_
      split
      · refine Prog.gives_bind (gives_indexerBroadcast tx) fun verdict hverdict => ?_
        refine Prog.gives_ret fun txid h => ?_
        cases h
        exact hverdict txid rfl
      · exact Prog.gives_ret fun txid h => by cases h
    · exact Prog.gives_ret fun txid h => by cases h
  · split
    · exact absurd rfl (hv _)
    · refine Prog.gives_bind (hread rfl) fun hasRpc _ => ?_
      split
      · exact gives_rpcBroadcast tx
      · split <;> exact Prog.gives_fail _

theorem gives_broadcastRaw (tx : BroadcastTx) :
    Prog.Gives (marksContract env) (HasRead env reads)
      (fun txid => computeTxid env tx.txHex = .ok txid) (broadcastRaw tx) := by
  have hread : ∀ {a : Act}, a.isBasic = true → Prog.Gives (marksContract env) (HasRead env reads)
      (fun _ => True) (perform a) := fun h => (keeps_leaving (work_basic h)).gives
  refine gives_verdict ?_ (fun txid => rfl) fun v hv => ?_
  · refine Prog.gives_bind (hread rfl) fun hasIndexer _ => ?_
    split
    · refine Prog.gives_bind (gives_indexerBroadcast tx) fun verdict hverdict => ?_
      refine Prog.gives_ret fun txid h => ?_
      cases h
      exact hverdict txid rfl
    · exact Prog.gives_ret fun txid h => by cases h
  · split
    · exact absurd rfl (hv _)
    · refine Prog.gives_bind (hread rfl) fun hasRpc _ => ?_
      split
      · exact gives_rpcBroadcast tx
      · exact Prog.gives_fail _

/-- The txid of a row that the program has read is stored. -/
theorem keeps_dbMarkBroadcast {tx : BroadcastTx} (hread : (tx.id, tx.txHex) ∈ reads) {txid : String}
    (htxid : computeTxid env tx.txHex = .ok txid) (fee : F64) :
    (dbMarkBroadcast env tx.id txid fee).Keeps (marksContract env) (HasRead env reads) := by
  refine keeps_hasRead (Prog.Uses.mono (fun a ha seen hseen => ?_)
    (work_clocked (K := fun a => ∀ seen, HasRead env reads seen → Marks env seen a) env _
      fun now seen hseen => ?_))
  · rcases ha with ha | ha
    · exact marks_of_leavesTxids (leavesTxids_of_work (Or.inl ha))
    · exact ha seen hseen
  · refine ⟨fun row h => (by cases h), fun id txid' fee' now' h => ?_⟩
    cases h
    exact ⟨tx.txHex, hseen _ hread, htxid⟩

theorem keeps_markRead {tx : BroadcastTx} (hread : (tx.id, tx.txHex) ∈ reads) {txid : String}
    (htxid : computeTxid env tx.txHex = .ok txid) (p : Proc) (fee : F64) :
    (markBroadcast env p tx.id txid fee).Keeps (marksContract env) (HasRead env reads) :=
  Prog.keeps_bind (keeps_dbMarkBroadcast hread htxid fee) fun _ =>
    Prog.keeps_bind (keeps_leaving (work_basic rfl)) fun _ => Prog.keeps_ret _

/-! ### The tick, `broadcast_now` and the command line -/

theorem keeps_broadcastIfFinal {tx : BroadcastTx} (hread : (tx.id, tx.txHex) ∈ reads) (p : Proc)
    (now : DateTime) :
    (broadcastIfFinal env p tx now).Keeps (marksContract env) (HasRead env reads) := by
  refine Prog.keeps_bind (keeps_leaving (clock_locktimeOrRefuse p _).work) fun ok => ?_
  show Prog.Keeps _ _ (if _ then _ else _)
  split
  · refine Prog.Gives.keeps_bind (gives_catchErr (gives_broadcastTransaction p tx))
      fun verdict hverdict => ?_
    cases verdict with
    | ok txid => exact keeps_markRead hread (hverdict txid rfl) p _
    | error e =>
      show Prog.Keeps _ _ (if _ then _ else _)
      split
      · exact Prog.keeps_ret _
      · exact keeps_leaving (work_clocked env _ fun _ => leavesTxids_update rfl)
  · exact keeps_leaving (work_recordMiss env p tx now fun _ _ _ => leavesTxids_update rfl)

theorem keeps_broadcastDueLoop (p : Proc) (now : DateTime) {txs : List BroadcastTx}
    (htxs : ∀ tx ∈ txs, (tx.id, tx.txHex) ∈ reads) :
    (broadcastDueLoop env p now txs).Keeps (marksContract env) (HasRead env reads) := by
  induction txs with
  | nil => exact Prog.keeps_ret _
  | cons tx txs ih =>
    refine Prog.keeps_bind (keeps_leaving (work_act (leavesTxids_of_writesPool rfl)))
      fun halted => ?_
    split
    · exact Prog.keeps_ret _
    · split
      · exact keeps_leaving (work_act (leavesTxids_of_writesPool rfl))
      · refine Prog.keeps_bind (keeps_broadcastIfFinal (htxs tx (List.mem_cons_self ..)) p now)
          fun _ => ?_
        exact ih fun tx' h => htxs tx' (List.mem_cons_of_mem _ h)

theorem marks_broadcastLoopPass (p : Proc) :
    (broadcastLoopPass env p).Keeps (marksContract env) (HasRead env []) := by
  have hread : Act.LeavesTxids (.isSafeMode p) := leavesTxids_of_writesPool rfl
  refine Prog.keeps_bind (keeps_leaving (work_act hread)) fun halted => ?_
  split
  · exact Prog.keeps_ret _
  · rw [runSchedulerTick_eq]
    refine Prog.keeps_bind (keeps_leaving (work_pendingDuePart env p hread
      (fun _ => leavesTxids_of_writesPool rfl) fun _ _ => leavesTxids_update rfl)) fun goesOn => ?_
    split
    · refine Prog.keeps_bind (keeps_leaving (uses_catchErr (work_requeueRetriableFailures env p
        fun _ _ => leavesTxids_update rfl))) fun _ => ?_
      refine Prog.keeps_bind (keeps_leaving (work_act hread)) fun halted => ?_
      split
      · exact Prog.keeps_ret _
      · refine Prog.keeps_bind (keeps_leaving (clock_configNetwork p).work) fun network => ?_
        refine Prog.keeps_bind (keeps_leaving (work_basic rfl)) fun now => ?_
        refine keeps_select_bind rfl
          (fun _ => marks_of_leavesTxids (leavesTxids_of_writesPool rfl)) fun candidates _ => ?_
        refine Prog.Gives.keeps_bind (gives_dueTxs p now candidates fun tx => ?_)
          fun due hdue => ?_
        · exact keeps_leaving (IsClock.work (uses_catchErr (clock_isTxDueForBroadcast p tx now)))
        · exact keeps_broadcastDueLoop p now fun tx htx =>
            List.mem_map_of_mem (hdue tx htx)
    · exact Prog.keeps_ret _

/-- One row is read, and work on it follows. -/
theorem keeps_getBroadcastTxById_bind {id : String} {f : BroadcastTx → M α}
    (hf : ∀ tx reads, tx.id = id → (tx.id, tx.txHex) ∈ reads →
      (f tx).Keeps (marksContract env) (HasRead env reads)) :
    ((getBroadcastTxById id).bind f).Keeps (marksContract env) (HasRead env []) := by
  unfold getBroadcastTxById
  rw [Prog.bind_eq, Prog.bind_assoc]
  refine keeps_select_bind rfl
    (fun _ => marks_of_leavesTxids (leavesTxids_of_writesPool rfl)) fun txs htxs => ?_
  cases txs with
  | nil => exact Prog.keeps_fail _
  | cons tx txs =>
    exact hf tx _ (htxs _ rfl tx (List.mem_cons_self ..)) (List.mem_cons_self ..)

theorem keeps_broadcastNow (p : Proc) (id : String) :
    (broadcastNow env p id).Keeps (marksContract env) (HasRead env []) := by
  refine Prog.keeps_bind (keeps_leaving (work_act (leavesTxids_of_writesPool rfl)))
    fun halted => ?_
  refine Prog.keeps_bind (keeps_ensure _ _) fun _ => ?_
  refine keeps_getBroadcastTxById_bind fun tx reads _ hread => ?_
  split
  · exact Prog.keeps_bind (keeps_leaving (work_act (leavesTxids_of_writesPool rfl)))
      fun _ => Prog.keeps_fail _
  · refine Prog.keeps_bind ?_ fun _ => ?_
    · unfold refuseEmitted
      split
      · exact Prog.keeps_fail _
      · exact Prog.keeps_fail _
      · exact Prog.keeps_ret _
    · refine Prog.keeps_bind (keeps_leaving (clock_locktimeOrRefuse p _).work) fun ok => ?_
      split
      · refine Prog.Gives.keeps_bind (gives_broadcastTransaction p tx) fun txid htxid => ?_
        exact Prog.keeps_bind (keeps_markRead hread htxid p _) fun _ => Prog.keeps_ret _
      · exact keeps_leaving (clock_refuseNonFinal p _).work

theorem keeps_broadcastSingle (id : String) :
    (broadcastSingle env id).Keeps (marksContract env) (HasRead env []) := by
  refine keeps_getBroadcastTxById_bind fun tx reads hid hread => ?_
  subst hid
  refine Prog.keeps_bind (keeps_ensure _ _) fun _ => ?_
  refine Prog.Gives.keeps_bind (P := fun txid => computeTxid env tx.txHex = .ok txid) ?_
    fun txid htxid => ?_
  · refine Prog.gives_bind (gives_catchErr (gives_broadcastRaw tx)) fun verdict hverdict => ?_
    cases verdict with
    | ok txid => exact Prog.gives_ret (hverdict txid rfl)
    | error e => exact Prog.gives_fail _
  · exact Prog.keeps_bind (keeps_dbMarkBroadcast hread htxid _) fun _ => Prog.keeps_ret _

theorem keeps_broadcasts (network : String) {c : Command} (hc : c.broadcasts = true) :
    (c.prog env network).Keeps (marksContract env) (HasRead env []) := by
  cases c with
  | broadcast id => exact Prog.keeps_bind (keeps_broadcastSingle id) fun _ => Prog.keeps_ret _
  | broadcastAll =>
    refine Prog.keeps_bind (keeps_leaving (quiet_select _ _).work) fun txs => ?_
    refine Prog.keeps_forEach txs fun tx _ => ?_
    exact Prog.keeps_bind (keeps_catchErr (keeps_broadcastSingle tx.id)) fun _ => Prog.keeps_ret _
  | _ => cases hc

/-- Every piece of work, on each of its paths. -/
theorem marks_activity (a : Activity) :
    (a.prog env).OnPaths (AnswersOwn env) (Marks env) [] := by
  refine Prog.Keeps.onPaths (I := HasRead env []) ?_ (fun k hk => by cases hk)
  by_cases hmarks : a.broadcasts = true
  · cases a with
    | broadcastLoop => exact marks_broadcastLoopPass .daemon
    | broadcastNow id =>
      exact Prog.keeps_bind (keeps_broadcastNow .daemon id) fun _ => Prog.keeps_ret _
    | command rpc indexer config c =>
      refine Prog.keeps_bind (keeps_leaving (work_startUp env .cli
        (leavesTxids_of_writesPool rfl) (fun _ _ _ _ => leavesTxids_update rfl)
        (fun _ _ _ => leavesTxids_of_writesPool rfl) (fun _ _ _ => leavesTxids_of_writesPool rfl)
        fun _ _ => leavesTxids_update rfl)) fun _ => ?_
      exact keeps_broadcasts config.network hmarks
    | _ => cases hmarks
  · refine keeps_leaving (work_activity a (allows_leavesTxids (by simpa using hmarks))
      (fun h => ?_) fun id h => ?_)
    all_goals
      subst h
      exact hmarks rfl

/-! ### A run -/

/-- The rows have no other txids than those of their transactions. -/
def World.OwnTxids (env : Env) (w : World) : Prop := ∀ r ∈ w.pool, r.OwnTxid env

/-- What was read is still known, and the txids are the own ones. -/
structure KnownOwn (env : Env) (g : Record) (w : World) : Prop where
  known : KnownHold env g w
  own : w.OwnTxids env

/-- A step stores no other txid than the one of the row. -/
theorem exec_ownTxids {g : Record} {w : World} {seen : List (Seen Act Act.Res)} {a : Act}
    (h : KnownOwn env g w) (hgrounded : Grounded env seen a) (hmarks : Marks env seen a)
    (hreads : ∀ k ∈ readsOf env seen, k ∈ g.reads) : (World.exec env a w).2.OwnTxids env := by
  intro r' hr' txid htxid
  rcases exec_leftAs h.known hgrounded hreads hr' with ⟨r, hr, hleft⟩ | ⟨ha, -⟩
  · rw [hleft.hex]
    rcases hleft.txid with hsame | ⟨txid', fee, now, ha, hset⟩
    · rw [hsame] at htxid
      exact h.own r hr txid htxid
    · -- The row still holds the text whose txid the backend has answered.
      rw [hset] at htxid
      obtain ⟨hex, hread, hcomputes⟩ := hmarks.mark r.id txid' fee now ha
      rw [h.known.hold _ (hreads _ hread) r hr rfl]
      cases htxid
      exact hcomputes
  · rw [hmarks.insert r' ha] at htxid
    cases htxid

/-- In a run of such programs, every txid in the table is the one of its row, if it was so at the
start. -/
theorem own_txids_of_paths (hanswers : env.AnswersTxids) {w : World}
    {chs : List (Choice Act Act.Res Failure)}
    (hgrounded : ∀ p, Choice.start p ∈ chs → p.OnPaths anyAnswer (Grounded env) [])
    (hmarks : ∀ p, Choice.start p ∈ chs → p.OnPaths (AnswersOwn env) (Marks env) [])
    (hids : DistinctIds w (Config.performed (World.exec env) ⟨w, []⟩ chs))
    (hown : w.OwnTxids env) :
    ∀ e ∈ Config.performed (World.exec env) ⟨w, []⟩ chs, e.state.OwnTxids env := by
  have hground : ∀ e ∈ Config.performed (World.exec env) ⟨w, []⟩ chs,
      Grounded env e.seen e.act :=
    Config.performed_of_paths (anyAnswer_exec env) _ _ (fun t ht => by cases ht) hgrounded
  have hmark : ∀ e ∈ Config.performed (World.exec env) ⟨w, []⟩ chs, Marks env e.seen e.act :=
    Config.performed_of_paths (answersOwn_exec hanswers) _ _ (fun t ht => by cases ht) hmarks
  have hstart : KnownOwn env ⟨w.pool.map (·.id), []⟩ w :=
    ⟨knownHold_start (List.nodup_append.1 hids).1, hown⟩
  have hfresh := (along_of_nodup insertedId hids).comap
    (g := (⟨w.pool.map (·.id), []⟩ : Record)) (fun g => g.ids) (Record.after env) fun _ _ => rfl
  intro e he
  obtain ⟨before, after, hsplit⟩ := List.append_of_mem he
  refine (Config.performed_recorded (Record.after env) (I := KnownOwn env)
    (J := fun g s => ∀ k ∈ readsIn env s, k ∈ g.reads)
    (fun g e s hs k hk => List.mem_append_left _ (hs k hk)) chs ⟨w, []⟩ _
    ⟨hstart, fun t ht => by cases ht⟩ hfresh (fun e he g hg hreads hnew => ?_) hsplit).1.own
  have hknown : ∀ k ∈ readsOf env e.seen, k ∈ g.reads := by
    intro k hk
    obtain ⟨s, hs, hk⟩ := List.mem_flatMap.1 hk
    exact hreads s hs k hk
  refine ⟨⟨?_, ?_⟩, fun k hk => List.mem_append_right _ hk⟩
  · exact knownHold_step hg.known (hground e he) hknown hnew
  · exact exec_ownTxids hg (hground e he) (hmark e he) hknown

end

end BroadcastPool
