import BroadcastPool.Lib.Yields
import BroadcastPool.Price.Feed

/-!
# `BroadcastPool.Proofs.PriceFeed`: where a price comes from

A price that decides a release is one that a provider has quoted, and a snapshot is never put
together from two of them. `Fetched` says of a call that it got a snapshot itself: the providers
before the one that it names have failed, and that one has both prices. `Served` are the three
ways in which `fetch_snapshot` gets its result, by the answers that the call has seen.

Any number of calls run at the same time, and they share the cache and the last known good
snapshot. `Kept` says that both hold what some call has fetched. So the monitor evaluates prices
that are less than a minute old on the monotonic clock (`evaluated_prices_quoted`), and the
dashboard is shown an older snapshot only if every provider has failed in this very call
(`responded_snapshot_fetched`).
-/

set_option autoImplicit false

namespace BroadcastPool

open Effects

/-! ### What a call has seen -/

/-- The answers that a call of the feed has got. -/
abbrev PriceSeen : Type := List (Seen PriceAct PriceAct.Res)

/-- Every request was answered, in this order. -/
def AllAnswered (seen : PriceSeen) (requests : List (String × Option String))
    (resps : List Json) : Prop :=
  List.Forall₂ (fun request resp =>
    (⟨.get request.1 request.2, some resp⟩ : Seen PriceAct PriceAct.Res) ∈ seen) requests resps

namespace Provider

/-- The provider has answered all requests with these prices. -/
def Quoted (provider : Provider) (seen : PriceSeen) (prices : Prices) : Prop :=
  ∃ resps, AllAnswered seen provider.requests resps ∧ provider.prices resps = some prices

/-- A request to the provider has failed, or its answers lack a price. -/
def Failed (provider : Provider) (seen : PriceSeen) : Prop :=
  (∃ request ∈ provider.requests,
    (⟨.get request.1 request.2, none⟩ : Seen PriceAct PriceAct.Res) ∈ seen) ∨
  ∃ resps, AllAnswered seen provider.requests resps ∧
    ∀ prices, provider.prices resps = some prices → prices.len < 2

end Provider

/-- The first of the providers `ps` that has not failed has quoted the snapshot. -/
def QuotedBy (ps : List Provider) (seen : PriceSeen) (snapshot : PriceSnapshot) : Prop :=
  ∃ before provider after, ps = before ++ provider :: after ∧
    (∀ other ∈ before, other.Failed seen) ∧ provider.source = snapshot.source ∧
    provider.Quoted seen snapshot.prices

/-- The call has fetched the snapshot itself. -/
structure Fetched (ps : List Provider) (seen : PriceSeen) (snapshot : PriceSnapshot) : Prop where
  quoted : QuotedBy ps seen snapshot
  complete : 2 ≤ snapshot.prices.len
  fresh : snapshot.stale = false
  time : (⟨.now, snapshot.fetchedAt⟩ : Seen PriceAct PriceAct.Res) ∈ seen

/-- The call has got nothing from any provider. -/
def NoneFetched (ps : List Provider) (seen : PriceSeen) : Prop :=
  (⟨.buildClient, false⟩ : Seen PriceAct PriceAct.Res) ∈ seen ∨
    ∀ provider ∈ ps, provider.Failed seen

/-- How `fetch_snapshot` gets its result. -/
inductive Served (ps : List Provider) (seen : PriceSeen) : PriceSnapshot → Prop
  | fetched {snapshot : PriceSnapshot} (h : Fetched ps seen snapshot) : Served ps seen snapshot
  | cached {entry : CachedEntry} {now : Nat} (hread : ⟨.readCache, (some entry, now)⟩ ∈ seen)
      (hyoung : now - entry.cachedAt < cacheTtl) : Served ps seen entry.snapshot
  | lastKnown {lkg : PriceSnapshot} {now : DateTime} (hread : ⟨.readLkg, some lkg⟩ ∈ seen)
      (hnow : ⟨.now, now⟩ ∈ seen) (hage : (now - lkg.fetchedAt).tdiv 1000000000 ≤ lkgMaxAge)
      (hnone : NoneFetched ps seen) : Served ps seen { lkg with stale := true }

theorem two_le_len_iff {prices : Prices} :
    2 ≤ prices.len ↔ prices.eur.isSome = true ∧ prices.usd.isSome = true := by
  obtain ⟨eur, usd⟩ := prices
  cases eur <;> cases usd <;> simp [Prices.len]

section
variable {ps : List Provider} {seen seen' : PriceSeen} {provider : Provider}
  {snapshot : PriceSnapshot}

theorem AllAnswered.mono {requests : List (String × Option String)} {resps : List Json}
    (h : AllAnswered seen requests resps) (hsub : seen ⊆ seen') :
    AllAnswered seen' requests resps :=
  List.Forall₂.imp (fun _ _ hmem => hsub hmem) h

theorem Provider.Failed.mono (h : provider.Failed seen) (hsub : seen ⊆ seen') :
    provider.Failed seen' := by
  rcases h with ⟨request, hrequest, hmem⟩ | ⟨resps, hresps, hlen⟩
  · exact Or.inl ⟨request, hrequest, hsub hmem⟩
  · exact Or.inr ⟨resps, hresps.mono hsub, hlen⟩

theorem QuotedBy.mono (h : QuotedBy ps seen snapshot) (hsub : seen ⊆ seen') :
    QuotedBy ps seen' snapshot := by
  obtain ⟨before, provider, after, hps, hfailed, hsource, resps, hresps, hprices⟩ := h
  exact ⟨before, provider, after, hps, fun other h => (hfailed other h).mono hsub, hsource,
    resps, hresps.mono hsub, hprices⟩

theorem Fetched.mono (h : Fetched ps seen snapshot) (hsub : seen ⊆ seen') :
    Fetched ps seen' snapshot :=
  { h with quoted := h.quoted.mono hsub, time := hsub h.time }

theorem NoneFetched.mono (h : NoneFetched ps seen) (hsub : seen ⊆ seen') :
    NoneFetched ps seen' :=
  h.imp (fun h => hsub h) fun h provider hp => (h provider hp).mono hsub

theorem Served.mono (h : Served ps seen snapshot) (hsub : seen ⊆ seen') :
    Served ps seen' snapshot := by
  cases h with
  | fetched h => exact .fetched (h.mono hsub)
  | cached hread hyoung => exact .cached (hsub hread) hyoung
  | lastKnown hread hnow hage hnone =>
    exact .lastKnown (hsub hread) (hsub hnow) hage (hnone.mono hsub)

end

/-! ### One call -/

section
variable {libs : PriceLibs} {cmcApiKey : Option String}
variable {answers : (a : PriceAct) → a.Res → Prop} {l : PriceSeen}

/-- The requests to a provider, on every path. -/
theorem getAll_path (requests : List (String × Option String))
    {o : Except String (Option (List Json))} (h : (getAll requests).Path answers l o) :
    (∃ resps, o = .ok (some resps) ∧ AllAnswered l requests resps) ∨
      o = .ok none ∧ ∃ request ∈ requests,
        (⟨.get request.1 request.2, none⟩ : Seen PriceAct PriceAct.Res) ∈ l := by
  induction requests generalizing l o with
  | nil =>
    obtain ⟨rfl, rfl⟩ := Prog.path_ret_iff.1 h
    exact Or.inl ⟨[], rfl, .nil⟩
  | cons request requests ih =>
    obtain ⟨url, key⟩ := request
    obtain ⟨answer, l', -, hrest, rfl⟩ := Prog.path_perform_bind_iff.1 h
    cases answer with
    | none =>
      obtain ⟨-, rfl⟩ := Prog.path_ret_iff.1 hrest
      exact Or.inr ⟨rfl, (url, key), List.mem_cons_self .., List.mem_cons_self ..⟩
    | some resp =>
      rcases Prog.path_bind_iff.1 hrest with ⟨o', l₁, l₂, hl₁, hl₂, rfl⟩ | ⟨e, hfail, rfl⟩
      · rcases ih hl₁ with ⟨resps, hok, hresps⟩ | ⟨hok, request, hrequest, hmem⟩
        · cases hok
          obtain ⟨-, rfl⟩ := Prog.path_ret_iff.1 hl₂
          refine Or.inl ⟨resp :: resps, rfl, .cons (List.mem_cons_self ..) (hresps.mono ?_)⟩
          exact fun _ h => List.mem_cons_of_mem _ (List.mem_append_left _ h)
        · cases hok
          obtain ⟨-, rfl⟩ := Prog.path_ret_iff.1 hl₂
          exact Or.inr ⟨rfl, request, List.mem_cons_of_mem _ hrequest,
            List.mem_cons_of_mem _ (List.mem_append_left _ hmem)⟩
      · rcases ih hfail with ⟨resps, hok, -⟩ | ⟨hok, -⟩
        · cases hok
        · cases hok

theorem fetch_path {provider : Provider} {o : Except String (Option Prices)}
    (h : provider.fetch.Path answers l o) :
    (∃ prices, o = .ok (some prices) ∧ provider.Quoted l prices) ∨
      o = .ok none ∧ provider.Failed l := by
  rcases Prog.path_bind_iff.1 h with ⟨o', l₁, l₂, hl₁, hl₂, rfl⟩ | ⟨e, hfail, rfl⟩
  · rcases getAll_path _ hl₁ with ⟨resps, hok, hresps⟩ | ⟨hok, hfailed⟩
    · cases hok
      obtain ⟨rfl, rfl⟩ := Prog.path_ret_iff.1 hl₂
      rw [List.append_nil]
      cases hprices : provider.prices resps with
      | some prices => exact Or.inl ⟨prices, rfl, resps, hresps, hprices⟩
      | none =>
        refine Or.inr ⟨rfl, Or.inr ⟨resps, hresps, fun prices h => ?_⟩⟩
        rw [hprices] at h
        cases h
    · cases hok
      obtain ⟨rfl, rfl⟩ := Prog.path_ret_iff.1 hl₂
      rw [List.append_nil]
      exact Or.inr ⟨rfl, Or.inl hfailed⟩
  · rcases getAll_path _ hfail with ⟨resps, hok, -⟩ | ⟨hok, -⟩
    · cases hok
    · cases hok

theorem Fetched.after {ps : List Provider} {provider : Provider} {snapshot : PriceSnapshot}
    (h : Fetched ps l snapshot) (hfailed : provider.Failed l) :
    Fetched (provider :: ps) l snapshot := by
  obtain ⟨before, named, after, rfl, hbefore, hsource, hquoted⟩ := h.quoted
  refine { h with quoted := ⟨provider :: before, named, after, rfl, fun other hother => ?_,
    hsource, hquoted⟩ }
  rcases List.mem_cons.1 hother with rfl | hother
  · exact hfailed
  · exact hbefore other hother

/-- The first provider that has both prices gives the snapshot. -/
theorem firstComplete_path (ps : List Provider) {o : Except String PriceSnapshot}
    (h : (firstComplete ps).Path answers l o) :
    (∃ snapshot, o = .ok snapshot ∧ Fetched ps l snapshot) ∨
      (∃ e, o = .error e) ∧ ∀ provider ∈ ps, provider.Failed l := by
  induction ps generalizing l o with
  | nil =>
    obtain ⟨-, rfl⟩ := Prog.path_fail_iff.1 h
    exact Or.inr ⟨⟨_, rfl⟩, fun provider h => by cases h⟩
  | cons provider ps ih =>
    -- After a failure of this provider, the rest decides.
    have hrest : ∀ {l₁ l₂}, provider.Failed l₁ → (firstComplete ps).Path answers l₂ o →
        (∃ snapshot, o = .ok snapshot ∧ Fetched (provider :: ps) (l₁ ++ l₂) snapshot) ∨
          (∃ e, o = .error e) ∧ ∀ other ∈ provider :: ps, other.Failed (l₁ ++ l₂) := by
      intro l₁ l₂ hfailed hpath
      have hleft := hfailed.mono (List.subset_append_left l₁ l₂)
      have hright := List.subset_append_right l₁ l₂
      rcases ih hpath with ⟨snapshot, rfl, hfetched⟩ | ⟨he, hall⟩
      · exact Or.inl ⟨snapshot, rfl, (hfetched.mono hright).after hleft⟩
      · refine Or.inr ⟨he, fun other hother => ?_⟩
        rcases List.mem_cons.1 hother with rfl | hother
        · exact hleft
        · exact (hall other hother).mono hright
    rcases Prog.path_bind_iff.1 h with ⟨o', l₁, l₂, hl₁, hl₂, rfl⟩ | ⟨e, hfail, rfl⟩
    · rcases fetch_path hl₁ with ⟨prices, hok, hquoted⟩ | ⟨hok, hfailed⟩
      · cases hok
        dsimp only at hl₂
        split at hl₂
        · rename_i hcomplete
          obtain ⟨fetchedAt, l₃, -, hret, rfl⟩ := Prog.path_perform_bind_iff.1 hl₂
          obtain ⟨rfl, rfl⟩ := Prog.path_ret_iff.1 hret
          obtain ⟨resps, hresps, hprices⟩ := hquoted
          refine Or.inl ⟨_, rfl, ⟨[], provider, ps, rfl, fun _ h => (by cases h), rfl, resps,
            hresps.mono (List.subset_append_left ..), hprices⟩, hcomplete, rfl, ?_⟩
          exact List.mem_append_right _ (List.mem_cons_self ..)
        · rename_i hincomplete
          obtain ⟨resps, hresps, hprices⟩ := hquoted
          refine hrest (Or.inr ⟨resps, hresps, fun prices' h => ?_⟩) hl₂
          rw [hprices] at h
          cases h
          exact Nat.not_le.1 hincomplete
      · cases hok
        exact hrest hfailed hl₂
    · rcases fetch_path hfail with ⟨prices, hok, -⟩ | ⟨hok, -⟩
      · cases hok
      · cases hok

theorem fetchFresh_path {o : Except String PriceSnapshot}
    (h : (fetchFresh libs cmcApiKey).Path answers l o) :
    (∃ snapshot, o = .ok snapshot ∧ Fetched (providers libs cmcApiKey) l snapshot) ∨
      (∃ e, o = .error e) ∧ NoneFetched (providers libs cmcApiKey) l := by
  obtain ⟨ok, l', -, hrest, rfl⟩ := Prog.path_perform_bind_iff.1 h
  have hsub : l' ⊆ (⟨.buildClient, ok⟩ : Seen PriceAct PriceAct.Res) :: l' :=
    fun _ h => List.mem_cons_of_mem _ h
  cases ok with
  | true =>
    rcases firstComplete_path _ hrest with ⟨snapshot, rfl, hfetched⟩ | ⟨he, hall⟩
    · exact Or.inl ⟨snapshot, rfl, hfetched.mono hsub⟩
    · exact Or.inr ⟨he, Or.inr fun provider hp => (hall provider hp).mono hsub⟩
  | false =>
    obtain ⟨-, rfl⟩ := Prog.path_fail_iff.1 hrest
    exact Or.inr ⟨⟨_, rfl⟩, Or.inl (List.mem_cons_self ..)⟩

/-! ### What a call stores and gives out -/

/-- A call stores only what it has fetched, and gives out only what it was served. The monitor
evaluates nothing that is stale. -/
structure Sourced (ps : List Provider) (seen : PriceSeen) (a : PriceAct) : Prop where
  write : ∀ snapshot, a = .writeCache snapshot ∨ a = .writeLkg snapshot → Fetched ps seen snapshot
  evaluate : ∀ prices, a = .evaluate prices →
    ∃ snapshot, snapshot.prices = prices ∧ snapshot.stale = false ∧ Served ps seen snapshot
  respond : ∀ snapshot, a = .respond snapshot → Served ps seen snapshot

/-- The action only asks. -/
def PriceAct.asks : PriceAct → Bool
  | writeCache _ | writeLkg _ | evaluate _ | respond _ => false
  | _ => true

theorem sourced_of_asks {ps : List Provider} {a : PriceAct} (h : a.asks = true)
    (seen : PriceSeen) : Sourced ps seen a where
  write snapshot ha := by rcases ha with rfl | rfl <;> cases h
  evaluate prices ha := by rw [ha] at h; cases h
  respond snapshot ha := by rw [ha] at h; cases h

theorem asks_getAll (requests : List (String × Option String)) :
    (getAll requests).Uses fun a => a.asks = true := by
  induction requests with
  | nil => exact Prog.uses_ret _
  | cons request requests ih =>
    refine Prog.uses_bind ((Prog.uses_perform _).2 rfl) fun answer => ?_
    cases answer with
    | none => exact Prog.uses_ret _
    | some resp =>
      refine Prog.uses_bind ih fun resps => ?_
      cases resps <;> exact Prog.uses_ret _

theorem asks_firstComplete (ps : List Provider) :
    (firstComplete ps).Uses fun a => a.asks = true := by
  induction ps with
  | nil => exact Prog.uses_fail _
  | cons provider ps ih =>
    have hfetch : provider.fetch.Uses fun a => a.asks = true := by
      refine Prog.uses_bind (asks_getAll _) fun resps => ?_
      cases resps <;> exact Prog.uses_ret _
    refine Prog.uses_bind hfetch fun prices => ?_
    cases prices with
    | none => exact ih
    | some prices =>
      dsimp only
      split
      · exact Prog.uses_bind ((Prog.uses_perform _).2 rfl) fun _ => Prog.uses_ret _
      · exact ih

theorem asks_fetchFresh : (fetchFresh libs cmcApiKey).Uses fun a => a.asks = true := by
  refine Prog.uses_bind ((Prog.uses_perform _).2 rfl) fun ok => ?_
  split
  · exact asks_firstComplete _
  · exact Prog.uses_fail _

variable {l₀ : PriceSeen}

/-- What a call returns goes with what it has seen, and it stores and gives out accordingly. -/
abbrev Sources {α : Type} (ps : List Provider) (l₀ : PriceSeen) (Q : α → PriceSeen → Prop)
    (prog : PriceM α) : Prop :=
  prog.Learns (fun _ _ => True) (Sourced ps) l₀ Q

theorem sources_ask {ps : List Provider} {a : PriceAct} (h : a.asks = true) :
    Sources ps l₀ (fun r l => (⟨a, r⟩ : Seen PriceAct PriceAct.Res) ∈ l) (ask a) :=
  Prog.learns_perform (fun l _ => sourced_of_asks h l) fun _ _ _ _ hmem => hmem

/-- A snapshot that was fetched may be stored. -/
theorem sources_store {ps : List Provider} {snapshot : PriceSnapshot} {a : PriceAct}
    (ha : a = .writeCache snapshot ∨ a = .writeLkg snapshot) (h : Fetched ps l₀ snapshot) :
    Sources ps l₀ (fun _ _ => True) (ask a) := by
  refine Prog.learns_perform (fun l hl => ⟨fun snapshot' ha' => ?_, fun prices ha' => ?_,
    fun snapshot' ha' => ?_⟩) fun _ _ _ _ _ => trivial
  · have hsame : snapshot' = snapshot := by
      rcases ha with rfl | rfl <;> rcases ha' with ha' | ha' <;> cases ha' <;> rfl
    rw [hsame]
    exact h.mono hl
  · rcases ha with rfl | rfl <;> cases ha'
  · rcases ha with rfl | rfl <;> cases ha'

theorem sources_lkgSnapshot {ps : List Provider} (h : NoneFetched ps l₀) :
    Sources ps l₀ (fun snapshot l => Served ps l snapshot) lkgSnapshot := by
  refine Prog.learns_bind (sources_ask rfl) fun lkg l₁ hl₁ hread => ?_
  cases lkg with
  | none => exact Prog.learns_fail _
  | some lkg =>
    refine Prog.learns_bind (sources_ask rfl) fun now l₂ hl₂ hnow => ?_
    show Sources ps l₂ _ (if _ then _ else _)
    split
    · exact Prog.learns_fail _
    · rename_i hage
      exact Prog.learns_ret fun l hl => .lastKnown (hl (hl₂ hread)) (hl hnow) (Int.not_lt.1 hage)
        (h.mono fun _ h => hl (hl₂ (hl₁ h)))

theorem sources_refreshSnapshot :
    Sources (providers libs cmcApiKey) l₀
      (fun snapshot l => Served (providers libs cmcApiKey) l snapshot)
      (refreshSnapshot libs cmcApiKey) := by
  refine Prog.learns_bind (Prog.learns_attempt_of_path (fun a ha l => sourced_of_asks ha l)
    asks_fetchFresh (fun l o => fetchFresh_path) l₀) fun o l₁ _ hpath => ?_
  obtain ⟨l', hsub, hpath⟩ := hpath
  rcases hpath with ⟨snapshot, rfl, hfetched⟩ | ⟨⟨e, rfl⟩, hnone⟩
  · have hfetched := hfetched.mono hsub
    refine Prog.learns_bind (sources_store (Or.inl rfl) hfetched) fun _ l₂ hl₂ _ => ?_
    refine Prog.learns_bind (sources_store (Or.inr rfl) (hfetched.mono hl₂)) fun _ l₃ hl₃ _ => ?_
    exact Prog.learns_ret fun l hl => .fetched (hfetched.mono fun _ h => hl (hl₃ (hl₂ h)))
  · exact sources_lkgSnapshot (hnone.mono hsub)

theorem sources_fetchSnapshot :
    Sources (providers libs cmcApiKey) l₀
      (fun snapshot l => Served (providers libs cmcApiKey) l snapshot)
      (fetchSnapshot libs cmcApiKey) := by
  refine Prog.learns_bind (sources_ask rfl) fun answer l₁ _ hread => ?_
  obtain ⟨cached, now⟩ := answer
  cases cached with
  | none => exact sources_refreshSnapshot
  | some entry =>
    show Sources _ l₁ _ (if _ then _ else _)
    split
    · rename_i hyoung
      exact Prog.learns_ret fun l hl => .cached (hl hread) hyoung
    · exact sources_refreshSnapshot

/-- The work that uses the feed. -/
inductive IsPriceWork (libs : PriceLibs) (cmcApiKey : Option String) : PriceM Unit → Prop
  | monitor : IsPriceWork libs cmcApiKey (runPriceMonitorPass libs cmcApiKey)
  | dashboard : IsPriceWork libs cmcApiKey (getBtcPrice libs cmcApiKey)
  | prefetch : IsPriceWork libs cmcApiKey (prefetchPrices libs cmcApiKey)

theorem sourced_priceWork {prog : PriceM Unit} (h : IsPriceWork libs cmcApiKey prog) :
    prog.OnPaths (fun _ _ => True) (Sourced (providers libs cmcApiKey)) [] := by
  suffices hsources : Sources (providers libs cmcApiKey) [] (fun _ _ => True) prog from
    hsources.onPaths
  cases h with
  | monitor =>
    refine Prog.learns_bind sources_fetchSnapshot fun snapshot l₁ _ hserved => ?_
    split
    · exact Prog.learns_ret fun _ _ => trivial
    · rename_i hfresh
      refine Prog.learns_perform (fun l hl => ⟨fun _ ha => ?_, fun prices ha => ?_,
        fun _ ha => ?_⟩) fun _ _ _ _ _ => trivial
      · rcases ha with ha | ha <;> cases ha
      · cases ha
        exact ⟨snapshot, rfl, by simpa using hfresh, hserved.mono hl⟩
      · cases ha
  | dashboard =>
    refine Prog.learns_bind sources_fetchSnapshot fun snapshot l₁ _ hserved => ?_
    refine Prog.learns_perform (fun l hl => ⟨fun _ ha => ?_, fun _ ha => ?_, fun _ ha => ?_⟩)
      fun _ _ _ _ _ => trivial
    · rcases ha with ha | ha <;> cases ha
    · cases ha
    · cases ha
      exact hserved.mono hl
  | prefetch =>
    refine Prog.learns_bind sources_fetchSnapshot.attempt fun _ _ _ _ => ?_
    exact Prog.learns_ret fun _ _ => trivial

end

/-! ### A run -/

/-- A step of a run of the feed. -/
abbrev PriceStep : Type := Performed PriceAct PriceAct.Res FeedState

/-- The snapshot was stored in the cache at the instant, by a step of the history. -/
def CachedBy (history : List PriceStep) (entry : CachedEntry) : Prop :=
  ∃ e ∈ history, e.act = .writeCache entry.snapshot ∧ e.state.instant = entry.cachedAt

/-- The snapshot was stored as the last known good one by a step of the history. -/
def KnownBy (history : List PriceStep) (lkg : PriceSnapshot) : Prop :=
  ∃ e ∈ history, e.act = .writeLkg lkg

/-- What the memory holds was stored by a step of the history. -/
structure Kept (history : List PriceStep) (s : FeedState) : Prop where
  cache : ∀ entry ∈ s.cache, CachedBy history entry
  lkg : ∀ lkg ∈ s.lkg, KnownBy history lkg

/-- An answer about the memory is one that a step of the history has stored. -/
structure ReadBack (history : List PriceStep) (s : Seen PriceAct PriceAct.Res) : Prop where
  cache : ∀ entry now, s = ⟨.readCache, (some entry, now)⟩ → CachedBy history entry
  lkg : ∀ lkg, s = ⟨.readLkg, some lkg⟩ → KnownBy history lkg

section
variable {env : FeedEnv} {history : List PriceStep}

theorem CachedBy.mono {entry : CachedEntry} (h : CachedBy history entry) (e : PriceStep) :
    CachedBy (history ++ [e]) entry := by
  obtain ⟨e₀, he₀, h⟩ := h
  exact ⟨e₀, List.mem_append_left _ he₀, h⟩

theorem KnownBy.mono {lkg : PriceSnapshot} (h : KnownBy history lkg) (e : PriceStep) :
    KnownBy (history ++ [e]) lkg := by
  obtain ⟨e₀, he₀, h⟩ := h
  exact ⟨e₀, List.mem_append_left _ he₀, h⟩

/-- One step. -/
theorem keptQuotes_step {e : PriceStep} (h : Kept history e.state) :
    Kept (history ++ [e]) (FeedState.exec env e.act e.state).2 ∧
      ReadBack (history ++ [e]) ⟨e.act, (FeedState.exec env e.act e.state).1⟩ := by
  have hcache : ∀ entry ∈ e.state.cache, CachedBy (history ++ [e]) entry :=
    fun entry hentry => (h.cache entry hentry).mono e
  have hlkg : ∀ lkg ∈ e.state.lkg, KnownBy (history ++ [e]) lkg :=
    fun lkg hlkg => (h.lkg lkg hlkg).mono e
  have hlast : e ∈ history ++ [e] := List.mem_append_right _ (List.mem_singleton_self e)
  obtain ⟨s, seen, a⟩ := e
  refine ⟨⟨fun entry hentry => ?_, fun lkg hread => ?_⟩, fun entry now hread => ?_,
    fun lkg hread => ?_⟩
  · cases a
    case writeCache snapshot =>
      cases hentry
      exact ⟨_, hlast, rfl, rfl⟩
    all_goals exact hcache entry hentry
  · cases a
    case writeLkg snapshot =>
      cases hread
      exact ⟨_, hlast, rfl⟩
    all_goals exact hlkg lkg hread
  · cases a
    case readCache =>
      have hanswer : (s.cache, s.instant) = (some entry, now) :=
        eq_of_heq (Sigma.mk.inj hread).2
      exact hcache entry (congrArg Prod.fst hanswer)
    all_goals cases (Sigma.mk.inj hread).1
  · cases a
    case readLkg =>
      have hanswer : s.lkg = some lkg := eq_of_heq (Sigma.mk.inj hread).2
      exact hlkg lkg hanswer
    all_goals cases (Sigma.mk.inj hread).1

theorem foldl_history (es : List PriceStep) :
    es.foldl (fun history e => history ++ [e]) history = history ++ es := by
  induction es generalizing history with
  | nil => simp
  | cons e es ih => simp [ih]

/-- A schedule of calls of the feed. -/
def IsPriceSchedule (libs : PriceLibs) (cmcApiKey : Option String)
    (chs : List (Choice PriceAct PriceAct.Res String)) : Prop :=
  ∀ prog, Choice.start prog ∈ chs → IsPriceWork libs cmcApiKey prog

variable {libs : PriceLibs} {cmcApiKey : Option String}
variable {chs : List (Choice PriceAct PriceAct.Res String)} {before after : List PriceStep}
variable {e : PriceStep}

theorem sourced_of_schedule (hschedule : IsPriceSchedule libs cmcApiKey chs) :
    ∀ e ∈ Config.performed (FeedState.exec env) ⟨{}, []⟩ chs,
      Sourced (providers libs cmcApiKey) e.seen e.act :=
  Config.performed_of_paths (fun _ _ => trivial) _ _ (fun t ht => by cases ht) fun prog hprog =>
    sourced_priceWork (hschedule prog hprog)

/-- What a call of the schedule has read back was stored by an earlier step. -/
theorem readBack_of_split
    (hsplit : Config.performed (FeedState.exec env) ⟨{}, []⟩ chs = before ++ e :: after) :
    ∀ s ∈ e.seen, ReadBack before s := by
  have hempty : Kept [] ({} : FeedState) := ⟨fun _ h => (by cases h), fun _ h => (by cases h)⟩
  have hmono : ∀ (history : List PriceStep) (e : PriceStep) (s : Seen PriceAct PriceAct.Res),
      ReadBack history s → ReadBack (history ++ [e]) s := fun history e s hs =>
    ⟨fun entry now h => (hs.cache entry now h).mono e, fun lkg h => (hs.lkg lkg h).mono e⟩
  have hread := (Config.performed_recorded (fun history e => history ++ [e])
    (I := Kept) (J := ReadBack) hmono chs ⟨{}, []⟩ [] ⟨hempty, fun t ht => by cases ht⟩
    (along_of_forall (P := fun _ => True) (fun _ _ => trivial) [])
    (fun e _ history hkept _ _ => keptQuotes_step hkept) hsplit).2.1
  rw [foldl_history, List.nil_append] at hread
  exact hread

/-- The call has fetched the snapshot, or has read it from the cache less than a minute after
another call that had fetched it. -/
def Recent (ps : List Provider) (before : List PriceStep) (e : PriceStep)
    (snapshot : PriceSnapshot) : Prop :=
  Fetched ps e.seen snapshot ∨
    ∃ e₀ ∈ before, e₀.act = .writeCache snapshot ∧ Fetched ps e₀.seen snapshot ∧
      ∃ entry now, (⟨.readCache, (some entry, now)⟩ : Seen PriceAct PriceAct.Res) ∈ e.seen ∧
        now < e₀.state.instant + cacheTtl

/-- All providers have failed in this call. Another call has fetched the snapshot, not more than
ten minutes ago on the wall clock. -/
def LastKnown (ps : List Provider) (before : List PriceStep) (e : PriceStep)
    (snapshot : PriceSnapshot) : Prop :=
  NoneFetched ps e.seen ∧ ∃ e₀ ∈ before, ∃ lkg, e₀.act = .writeLkg lkg ∧
    Fetched ps e₀.seen lkg ∧ snapshot = { lkg with stale := true } ∧
    ∃ now, (⟨.now, now⟩ : Seen PriceAct PriceAct.Res) ∈ e.seen ∧
      (now - lkg.fetchedAt).tdiv 1000000000 ≤ lkgMaxAge

theorem recent_or_lastKnown (hschedule : IsPriceSchedule libs cmcApiKey chs)
    (hsplit : Config.performed (FeedState.exec env) ⟨{}, []⟩ chs = before ++ e :: after)
    {snapshot : PriceSnapshot} (h : Served (providers libs cmcApiKey) e.seen snapshot) :
    Recent (providers libs cmcApiKey) before e snapshot ∨
      snapshot.stale = true ∧ LastKnown (providers libs cmcApiKey) before e snapshot := by
  have hsourced : ∀ e₀ ∈ before, Sourced (providers libs cmcApiKey) e₀.seen e₀.act :=
    fun e₀ he₀ => sourced_of_schedule hschedule e₀ (hsplit ▸ List.mem_append_left _ he₀)
  have hreads := readBack_of_split hsplit
  cases h with
  | fetched h => exact Or.inl (Or.inl h)
  | @cached entry now hread hyoung =>
    obtain ⟨e₀, he₀, hact, hinstant⟩ := (hreads _ hread).cache entry now rfl
    refine Or.inl (Or.inr ⟨e₀, he₀, hact, (hsourced e₀ he₀).write _ (Or.inl hact), entry, now,
      hread, ?_⟩)
    rw [hinstant]
    omega
  | @lastKnown lkg now hread hnow hage hnone =>
    obtain ⟨e₀, he₀, hact⟩ := (hreads _ hread).lkg lkg rfl
    exact Or.inr ⟨rfl, hnone, e₀, he₀, lkg, hact, (hsourced e₀ he₀).write _ (Or.inr hact), rfl,
      now, hnow, hage⟩

end

/-! ### A sample run -/

/-- The prices that CoinGecko quotes in the sample. -/
def samplePrices : Prices := ⟨some ⟨0x40ED4C1000000000⟩, some ⟨0x40EFBD1000000000⟩⟩

/-- Kraken does not answer, and CoinGecko does. -/
def quotingEnv : FeedEnv where
  clientOk _ := true
  fetch _ url _ :=
    if url = "https://api.coingecko.com/api/v3/simple/price?ids=bitcoin&vs_currencies=eur,usd" then
      some (.obj [("bitcoin", .obj [("eur", .num (.float 0x40ED4C1000000000)),
        ("usd", .num (.float 0x40EFBD1000000000))])])
    else none
  wall tick := tick * 1000000000
  elapse _ := 1000

/-- Libraries whose functions the sample does not need: its prices are floats. -/
def quotingLibs : PriceLibs where
  parseF64 _ := none
  intToF64 _ := .zero

/-- A pass of the monitor, and then a request of the dashboard. -/
def priceSchedule : List (Choice PriceAct PriceAct.Res String) :=
  .start (runPriceMonitorPass quotingLibs none) :: List.replicate 8 (.step 0) ++
    .start (getBtcPrice quotingLibs none) :: List.replicate 2 (.step 1)

def pricePerformed : List PriceStep :=
  Config.performed (FeedState.exec quotingEnv) ⟨{}, []⟩ priceSchedule

theorem isPriceSchedule_priceSchedule : IsPriceSchedule quotingLibs none priceSchedule := by
  intro prog hprog
  simp only [priceSchedule, List.mem_cons, List.mem_append, List.mem_replicate] at hprog
  rcases hprog with (hprog | ⟨-, hprog⟩) | hprog | ⟨-, hprog⟩
  · cases hprog
    exact .monitor
  · cases hprog
  · cases hprog
    exact .dashboard
  · cases hprog

theorem length_pricePerformed : pricePerformed.length = 10 := by decide +kernel

theorem split_pricePerformed (i : Fin pricePerformed.length) :
    pricePerformed =
      pricePerformed.take i ++ pricePerformed.get i :: pricePerformed.drop (i + 1) := by
  rw [List.get_eq_getElem, ← List.drop_eq_getElem_cons i.2, List.take_append_drop]

/-! ### The results -/

/-- Whatever the providers answer and however the calls interleave, the prices that the monitor
evaluates are both there, were quoted by one provider, and are recent. -/
theorem evaluated_prices_quoted (env : FeedEnv) (libs : PriceLibs) (cmcApiKey : Option String)
    (chs : List (Choice PriceAct PriceAct.Res String))
    (hschedule : IsPriceSchedule libs cmcApiKey chs) {before after : List PriceStep}
    {e : PriceStep}
    (hsplit : Config.performed (FeedState.exec env) ⟨{}, []⟩ chs = before ++ e :: after)
    {prices : Prices} (hevaluates : e.act = .evaluate prices) :
    prices.eur.isSome = true ∧ prices.usd.isSome = true ∧
      ∃ snapshot, snapshot.prices = prices ∧
        Recent (providers libs cmcApiKey) before e snapshot := by
  have he : e ∈ Config.performed (FeedState.exec env) ⟨{}, []⟩ chs := by
    rw [hsplit]
    exact List.mem_append_right _ (List.mem_cons_self ..)
  obtain ⟨snapshot, rfl, hfresh, hserved⟩ :=
    (sourced_of_schedule hschedule e he).evaluate prices hevaluates
  rcases recent_or_lastKnown hschedule hsplit hserved with hrecent | ⟨hstale, -⟩
  · have hcomplete : 2 ≤ snapshot.prices.len := by
      rcases hrecent with hfetched | ⟨_, -, -, hfetched, -⟩
      · exact hfetched.complete
      · exact hfetched.complete
    obtain ⟨heur, husd⟩ := two_le_len_iff.1 hcomplete
    exact ⟨heur, husd, snapshot, rfl, hrecent⟩
  · rw [hfresh] at hstale
    cases hstale

theorem evaluated_prices_quoted_coingecko :
    ∃ e ∈ pricePerformed, e.act = .evaluate samplePrices ∧ ∃ snapshot,
      snapshot.prices = samplePrices ∧
        Recent (providers quotingLibs none) (pricePerformed.take 7) e snapshot := by
  have hevaluates : (pricePerformed.get ⟨7, by rw [length_pricePerformed]; decide⟩).act =
      .evaluate samplePrices := rfl
  obtain ⟨-, -, snapshot, hprices, hrecent⟩ := evaluated_prices_quoted quotingEnv quotingLibs none
    priceSchedule isPriceSchedule_priceSchedule (split_pricePerformed ⟨7, _⟩) hevaluates
  exact ⟨_, List.get_mem .., hevaluates, snapshot, hprices, hrecent⟩

/-- The dashboard is shown a recent snapshot, or one that is marked as stale: then all providers
have failed in this call, and the snapshot is not too old. -/
theorem responded_snapshot_fetched (env : FeedEnv) (libs : PriceLibs)
    (cmcApiKey : Option String) (chs : List (Choice PriceAct PriceAct.Res String))
    (hschedule : IsPriceSchedule libs cmcApiKey chs) {before after : List PriceStep}
    {e : PriceStep}
    (hsplit : Config.performed (FeedState.exec env) ⟨{}, []⟩ chs = before ++ e :: after)
    {snapshot : PriceSnapshot} (hresponds : e.act = .respond snapshot) :
    if snapshot.stale then LastKnown (providers libs cmcApiKey) before e snapshot
    else Recent (providers libs cmcApiKey) before e snapshot := by
  have he : e ∈ Config.performed (FeedState.exec env) ⟨{}, []⟩ chs := by
    rw [hsplit]
    exact List.mem_append_right _ (List.mem_cons_self ..)
  have hserved := (sourced_of_schedule hschedule e he).respond snapshot hresponds
  rcases recent_or_lastKnown hschedule hsplit hserved with hrecent | ⟨hstale, hknown⟩
  · have hfresh : snapshot.stale = false := by
      rcases hrecent with hfetched | ⟨_, -, -, hfetched, -⟩
      · exact hfetched.fresh
      · exact hfetched.fresh
    rw [if_neg (by simp [hfresh])]
    exact hrecent
  · rw [if_pos hstale]
    exact hknown

theorem responded_snapshot_fetched_cached :
    ∃ e ∈ pricePerformed, ∃ snapshot, e.act = .respond snapshot ∧ snapshot.stale = false ∧
      Recent (providers quotingLibs none) (pricePerformed.take 9) e snapshot := by
  let snapshot : PriceSnapshot := ⟨samplePrices, "coingecko", false, 4000000000⟩
  have hresponds : (pricePerformed.get ⟨9, by rw [length_pricePerformed]; decide⟩).act =
      .respond snapshot := rfl
  have hresult := responded_snapshot_fetched quotingEnv quotingLibs none priceSchedule
    isPriceSchedule_priceSchedule (split_pricePerformed ⟨9, _⟩) hresponds
  exact ⟨_, List.get_mem .., snapshot, hresponds, rfl, hresult⟩

end BroadcastPool
