import BroadcastPool.Db.Models
import BroadcastPool.Lib.Interleave
import BroadcastPool.Lib.Json

/-!
# `BroadcastPool.Price.Feed`: the price feed

`PriceFeed` asks one provider after the other until one has both prices, and keeps what it got in
two places. The cache is good for a minute of the monotonic clock. The last known good snapshot is
for the case that every provider fails, and it is good for ten minutes of the wall clock.

A request is an action of its own, and so is each acquisition of one of the two mutexes. So calls
of `fetch_snapshot` can run at the same time in any order. No code panics while it holds one of
the mutexes, and neither is ever poisoned. Why a provider fails is only logged.
-/

set_option autoImplicit false

namespace BroadcastPool

open Effects

/-! ### What the providers answer -/

inductive Currency
  | eur
  | usd
deriving DecidableEq, Repr

/-- The key of a currency in a map of prices. -/
def Currency.key : Currency → String
  | eur => "eur"
  | usd => "usd"

/-- The prices of a provider. The map has at most these two keys. -/
structure Prices where
  eur : Option F64 := none
  usd : Option F64 := none
deriving DecidableEq, Repr

namespace Prices

/-- The prices that a provider quotes, currency by currency. -/
def collect (quote : Currency → Option F64) : Prices := ⟨quote .eur, quote .usd⟩

def len (prices : Prices) : Nat := prices.eur.toList.length + prices.usd.toList.length

end Prices

/-- The libraries of the feed. -/
structure PriceLibs where
  /-- `str::parse::<f64>`. -/
  parseF64 : String → Option F64
  /-- `n as f64`. -/
  intToF64 : Int → F64

section
variable (libs : PriceLibs)

/-- `Value::as_f64`. -/
def asF64 : Json → Option F64
  | .num (.int n) => some (libs.intToF64 n)
  | .num (.float bits) => some ⟨bits⟩
  | _ => none

/-- `parse_price_value`. -/
def parsePriceValue (v : Json) : Option F64 :=
  (asF64 libs v).or (v.asStr?.bind libs.parseF64)

/-- The name of a ticker at Kraken. -/
def krakenTicker : Currency → String
  | .eur => "XXBTZEUR"
  | .usd => "XXBTZUSD"

/-- The answer that `fetch_kraken` reads. -/
def krakenPrices (resp : Json) : Option Prices :=
  if ((resp.get? "error").bind Json.asArray?).any (!·.isEmpty) then none
  else do
    let result ← resp.get? "result"
    let _ ← result.asObject?
    return .collect fun currency => do
      let ticker ← result.get? (krakenTicker currency)
      let last ← (ticker.get? "c").bind (·.item? 0)
      last.asStr?.bind libs.parseF64

/-- The answer that `fetch_coingecko` reads. -/
def coingeckoPrices (resp : Json) : Prices :=
  .collect fun currency => do
    let btc ← resp.get? "bitcoin"
    (btc.get? currency.key).bind (asF64 libs)

/-- The two answers that `fetch_bitstamp` reads. -/
def bitstampPrices (eur usd : Json) : Prices :=
  .collect fun currency =>
    let resp := match currency with
      | .eur => eur
      | .usd => usd
    (resp.get? "last").bind (parsePriceValue libs)

/-- The name of a currency at CoinMarketCap. -/
def coinmarketcapQuote : Currency → String
  | .eur => "EUR"
  | .usd => "USD"

/-- The answer that `fetch_coinmarketcap` reads. -/
def coinmarketcapPrices (resp : Json) : Prices :=
  .collect fun currency => do
    let data ← resp.get? "data"
    let btc ← data.get? "BTC"
    let quote ← btc.get? "quote"
    let entry ← quote.get? (coinmarketcapQuote currency)
    (entry.get? "price").bind (asF64 libs)

end

/-! ### The providers -/

/-- A provider: its name, the requests that are sent to it, with the key if it wants one, and how
its answers are read. -/
structure Provider where
  source : String
  requests : List (String × Option String)
  prices : List Json → Option Prices

section
variable (libs : PriceLibs)

def kraken : Provider where
  source := "kraken"
  requests := [("https://api.kraken.com/0/public/Ticker?pair=XXBTZEUR,XXBTZUSD", none)]
  prices
    | [resp] => krakenPrices libs resp
    | _ => none

def coingecko : Provider where
  source := "coingecko"
  requests :=
    [("https://api.coingecko.com/api/v3/simple/price?ids=bitcoin&vs_currencies=eur,usd", none)]
  prices
    | [resp] => some (coingeckoPrices libs resp)
    | _ => none

def bitstamp : Provider where
  source := "bitstamp"
  requests := [("https://www.bitstamp.net/api/v2/ticker/btceur/", none),
    ("https://www.bitstamp.net/api/v2/ticker/btcusd/", none)]
  prices
    | [eur, usd] => some (bitstampPrices libs eur usd)
    | _ => none

def coinmarketcap (apiKey : String) : Provider where
  source := "coinmarketcap"
  requests := [("https://pro-api.coinmarketcap.com/v1/cryptocurrency/quotes/latest" ++
    "?symbol=BTC&convert=EUR,USD", some apiKey)]
  prices
    | [resp] => some (coinmarketcapPrices libs resp)
    | _ => none

/-- The providers in the order in which `fetch_fresh` asks them. -/
def providers (cmcApiKey : Option String) : List Provider :=
  [kraken libs, coingecko libs, bitstamp libs] ++ cmcApiKey.toList.map (coinmarketcap libs)

end

/-! ### The feed -/

/-- `PriceSnapshot`. -/
structure PriceSnapshot where
  prices : Prices
  source : String
  stale : Bool
  fetchedAt : DateTime

/-- `CachedEntry`, with the monotonic clock in nanoseconds. -/
structure CachedEntry where
  snapshot : PriceSnapshot
  cachedAt : Nat

/-- `CACHE_TTL`, in nanoseconds. -/
def cacheTtl : Nat := 60 * 1000000000

/-- `LKG_MAX_AGE`, in seconds. -/
def lkgMaxAge : Int := 600

inductive PriceAct
  | buildClient
  /-- One request: send it, check the status and parse the answer. -/
  | get (url : String) (key : Option String)
  | now
  /-- The entry of the cache, and the monotonic clock. -/
  | readCache
  /-- Store a snapshot, with the monotonic clock. -/
  | writeCache (snapshot : PriceSnapshot)
  | readLkg
  | writeLkg (snapshot : PriceSnapshot)
  /-- Start `check_price_triggers` with these prices. -/
  | evaluate (prices : Prices)
  /-- Answer the dashboard with this snapshot. -/
  | respond (snapshot : PriceSnapshot)

@[reducible] def PriceAct.Res : PriceAct → Type
  | buildClient => Bool
  | get .. => Option Json
  | now => DateTime
  | readCache => Option CachedEntry × Nat
  | readLkg => Option PriceSnapshot
  | writeCache _ | writeLkg _ | evaluate _ | respond _ => Unit

abbrev PriceM : Type → Type := Prog PriceAct PriceAct.Res String

def ask (a : PriceAct) : PriceM a.Res := Prog.perform a

/-- The requests to a provider, one after the other. The first one that fails ends them. -/
def getAll : List (String × Option String) → PriceM (Option (List Json))
  | [] => pure (some [])
  | (url, key) :: requests => do
    match ← ask (.get url key) with
    | none => return none
    | some resp =>
      match ← getAll requests with
      | none => return none
      | some resps => return some (resp :: resps)

/-- `fetch_kraken`, `fetch_coingecko`, `fetch_bitstamp` and `fetch_coinmarketcap`. -/
def Provider.fetch (provider : Provider) : PriceM (Option Prices) := do
  match ← getAll provider.requests with
  | none => return none
  | some resps => return provider.prices resps

/-- `fresh_snapshot`. -/
def freshSnapshot (prices : Prices) (source : String) : PriceM PriceSnapshot := do
  let fetchedAt ← ask .now
  return { prices, source, stale := false, fetchedAt }

/-- The providers of `fetch_fresh`, one after the other. -/
def firstComplete : List Provider → PriceM PriceSnapshot
  | [] => .fail "All BTC price providers failed"
  | provider :: rest => do
    match ← provider.fetch with
    | some prices =>
      if 2 ≤ prices.len then freshSnapshot prices provider.source else firstComplete rest
    | none => firstComplete rest

variable (libs : PriceLibs) (cmcApiKey : Option String)

/-- `fetch_fresh`. -/
def fetchFresh : PriceM PriceSnapshot := do
  if ← ask .buildClient then firstComplete (providers libs cmcApiKey)
  else .fail "Failed to build HTTP client"

/-- `lkg_snapshot`. The age is in whole seconds, rounded towards zero. -/
def lkgSnapshot : PriceM PriceSnapshot := do
  match ← ask .readLkg with
  | none => .fail "No cached BTC price available"
  | some lkg =>
    let now ← ask .now
    let ageSecs := (now - lkg.fetchedAt).tdiv 1000000000
    if lkgMaxAge < ageSecs then
      .fail ("Cached BTC price too old (" ++ toString ageSecs ++ "s)")
    else return { lkg with stale := true }

/-- The part of `fetch_snapshot` after the cache. -/
def refreshSnapshot : PriceM PriceSnapshot := do
  match ← (fetchFresh libs cmcApiKey).attempt with
  | .ok snapshot =>
    ask (.writeCache snapshot)
    ask (.writeLkg snapshot)
    return snapshot
  | .error _ => lkgSnapshot

/-- `fetch_snapshot`. -/
def fetchSnapshot : PriceM PriceSnapshot := do
  match ← ask .readCache with
  | (some entry, now) =>
    if now - entry.cachedAt < cacheTtl then return entry.snapshot
    else refreshSnapshot libs cmcApiKey
  | (none, _) => refreshSnapshot libs cmcApiKey

/-! ### Who asks -/

/-- One pass of `run_price_monitor`. -/
def runPriceMonitorPass : PriceM Unit := do
  let snapshot ← fetchSnapshot libs cmcApiKey
  if snapshot.stale then pure () else ask (.evaluate snapshot.prices)

/-- `get_btc_price`. An error is answered as such. -/
def getBtcPrice : PriceM Unit := do
  let snapshot ← fetchSnapshot libs cmcApiKey
  ask (.respond snapshot)

/-- The part of `list_transactions` that warms the cache. -/
def prefetchPrices : PriceM Unit := do
  let _ ← (fetchSnapshot libs cmcApiKey).attempt

/-! ### The state -/

/-- The memory of the feed, and the monotonic clock. -/
structure FeedState where
  tick : Nat := 0
  instant : Nat := 0
  cache : Option CachedEntry := none
  lkg : Option PriceSnapshot := none

/-- The surroundings: what the network answers, the wall clock, and how long a step takes on the
monotonic clock. -/
structure FeedEnv where
  clientOk : Nat → Bool
  fetch : Nat → String → Option String → Option Json
  wall : Nat → DateTime
  elapse : Nat → Nat

namespace FeedState

/-- The answer to an action, and what it stores. -/
def effect (env : FeedEnv) (a : PriceAct) (s : FeedState) : a.Res × FeedState :=
  match a with
  | .buildClient => (env.clientOk s.tick, s)
  | .get url key => (env.fetch s.tick url key, s)
  | .now => (env.wall s.tick, s)
  | .readCache => ((s.cache, s.instant), s)
  | .writeCache snapshot => ((), { s with cache := some ⟨snapshot, s.instant⟩ })
  | .readLkg => (s.lkg, s)
  | .writeLkg snapshot => ((), { s with lkg := some snapshot })
  | .evaluate _ | .respond _ => ((), s)

/-- One step. Time passes with it. -/
def exec (env : FeedEnv) : Handler PriceAct PriceAct.Res FeedState := fun a s =>
  let (r, s') := effect env a s
  (r, { s' with tick := s.tick + 1, instant := s.instant + env.elapse s.tick })

end FeedState

end BroadcastPool
