import BroadcastPool.Proofs.VirtualBlock.Fetchable
import Mathlib.Data.List.Chain

/-!
# `BroadcastPool.Proofs.VirtualBlock.HeaderChain`: the fabricated headers are one chain

The headers above a tip that `fabricate_headers` makes are the chain that `chainAbove` defines
by recursion. It does not mention the height up to which headers are made, so that every two
answers about the same tip agree where they overlap (`fabricated_chain`).
-/

set_option autoImplicit false

namespace BroadcastPool

variable {libs : HeaderLibs} {tip : Header}

/-- Headers above a tip, one for each height: each names the hash of the one below it, and each
is ten minutes later than that, as long as 32 bits hold the time. -/
structure HeaderChain (libs : HeaderLibs) (tip : Header) (count : Nat)
    (headers : List Header) : Prop where
  length : headers.length = count
  links : (tip :: headers).IsChain fun a b => b.prevBlockhash = libs.blockHash a
  times : ∀ i (h : i < headers.length),
    headers[i].time = min (tip.time + 600 * (i + 1)) (2 ^ 32 - 1)
  ordered : (headers.map (·.time)).IsChain (· ≤ ·)

/-- The time of a header: the saturating sums are one capped sum. -/
theorem time_chainAbove {n : Nat} (h : n + 1 < 2 ^ 32) :
    (chainAbove libs tip (n + 1)).time = min (tip.time + 600 * (n + 1)) (2 ^ 32 - 1) := by
  show min (tip.time + min (600 * ((n + 1) % 2 ^ 32)) (2 ^ 32 - 1)) (2 ^ 32 - 1) = _
  rw [Nat.mod_eq_of_lt h]
  omega

theorem headerChain_chainAbove {count : Nat} (h : count < 2 ^ 32) :
    HeaderChain libs tip count ((List.range' 1 count).map (chainAbove libs tip)) := by
  have hsteps : ∀ start n, (List.range' start n).IsChain fun a b => b = a + 1 := fun start n =>
    List.isChain_range' start n 1
  constructor
  · rw [List.length_map, List.length_range']
  · have hcons : tip :: (List.range' 1 count).map (chainAbove libs tip) =
        (List.range' 0 (count + 1)).map (chainAbove libs tip) := by
      rw [List.range'_succ]
      rfl
    rw [hcons, List.isChain_map]
    refine (hsteps 0 (count + 1)).imp fun a b hb => ?_
    rw [hb]
    exact chainAbove_prevBlockhash tip a
  · intro i hi
    rw [List.length_map, List.length_range'] at hi
    rw [List.getElem_map, List.getElem_range', Nat.one_mul, Nat.add_comm 1 i]
    exact time_chainAbove (by omega)
  · rw [List.map_map, List.isChain_map]
    refine (hsteps 1 count).imp_of_mem_imp fun a b ha hb hab => ?_
    obtain ⟨n, rfl⟩ : ∃ n, a = n + 1 := ⟨a - 1, by rw [List.mem_range'_1] at ha; omega⟩
    rw [List.mem_range'_1] at hb
    subst hab
    show (chainAbove libs tip (n + 1)).time ≤ (chainAbove libs tip (n + 1 + 1)).time
    rw [time_chainAbove (by omega), time_chainAbove (by omega)]
    omega

/-- Every header with its height. -/
theorem fabricateHeaders_eq_zip {t h : Nat} {hex : String}
    (htip : decodeHeader libs hex = .ok tip) :
    fabricateHeaders libs t hex h =
      .ok ((List.range' (t + 1) (h - t)).zip
        (((List.range' 1 (h - t)).map (chainAbove libs tip)).map libs.serializeHex)) := by
  by_cases hle : h ≤ t
  · have hzero : h - t = 0 := by omega
    unfold fabricateHeaders
    rw [if_pos hle, hzero]
    rfl
  · have hheights : List.range' (t + 1) (h - t) = (List.range' 1 (h - t)).map (t + ·) :=
      (List.map_add_range' ..).symm
    rw [fabricateHeaders_eq htip (by omega), hheights, List.map_map, List.zip_map']
    rfl

/-- The fabricated headers of all heights up to `u` are one chain above the tip, the headers of
fewer heights are its beginning, and the header of one height is the last of them. -/
theorem fabricated_chain {t u : Nat} {hex : String} (htip : decodeHeader libs hex = .ok tip)
    (hnear : u - t < 2 ^ 32) :
    ∃ headers, HeaderChain libs tip (u - t) headers ∧
      let all := (List.range' (t + 1) (u - t)).zip (headers.map libs.serializeHex)
      fabricateHeaders libs t hex u = .ok all ∧
      ∀ h ≤ u, fabricateHeaders libs t hex h = .ok (all.take (h - t)) ∧
        headerHexAt libs t hex h = .ok ((all.take (h - t)).getLast?.map (·.2)) ∧
        (headerHexAt libs t hex h = .ok none ↔ h ≤ t) := by
  refine ⟨_, headerChain_chainAbove hnear, fabricateHeaders_eq_zip htip, fun h hle => ?_⟩
  have htake : ∀ start, (List.range' start (u - t)).take (h - t) = List.range' start (h - t) :=
    fun start => List.take_range'_of_length_ge (by omega)
  have hinitial : fabricateHeaders libs t hex h =
      .ok (((List.range' (t + 1) (u - t)).zip
        (((List.range' 1 (u - t)).map (chainAbove libs tip)).map libs.serializeHex)).take
          (h - t)) := by
    rw [fabricateHeaders_eq_zip htip, List.zip_eq_zipWith, List.zip_eq_zipWith,
      List.take_zipWith, ← List.map_take, ← List.map_take, htake, htake]
  refine ⟨hinitial, ?_, ?_⟩
  · by_cases hbelow : h ≤ t
    · have hzero : h - t = 0 := by omega
      rw [headerHexAt_of_le hex hbelow, hzero]
      rfl
    · unfold headerHexAt
      rw [if_neg hbelow, hinitial]
  · by_cases hbelow : h ≤ t
    · exact iff_of_true (headerHexAt_of_le hex hbelow) hbelow
    · rw [headerHexAt_eq htip (by omega)]
      exact iff_of_false (fun heq => by cases heq) hbelow

theorem fabricated_chain_genesis :
    ∃ headers, HeaderChain sampleHeaders genesisHeader (105 - 100) headers ∧
      let all := (List.range' (100 + 1) (105 - 100)).zip
        (headers.map sampleHeaders.serializeHex)
      fabricateHeaders sampleHeaders 100 genesisHex 105 = .ok all ∧
      ∀ h ≤ 105, fabricateHeaders sampleHeaders 100 genesisHex h = .ok (all.take (h - 100)) ∧
        headerHexAt sampleHeaders 100 genesisHex h =
          .ok ((all.take (h - 100)).getLast?.map (·.2)) ∧
        (headerHexAt sampleHeaders 100 genesisHex h = .ok none ↔ h ≤ 100) :=
  fabricated_chain decodeHeader_genesisHex (by decide)

end BroadcastPool
