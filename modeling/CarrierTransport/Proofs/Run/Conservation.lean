import CarrierTransport.Proofs.Flight.Fate
import CarrierTransport.Proofs.Run.Ledger
import CarrierTransport.Proofs.Scalar.Counts

/-!
# Conservation of charge

Without multiplication the charges that name a deposit add up to its charge if
it is propagated, and there are none if it is not.
-/

namespace CarrierTransport

variable {α σ : Type}

variable [WordSource σ]

namespace Propagation

/-- A group without gain is recorded with the carriers that it has, however many
they are. -/
theorem gainedCharge_one (group : UInt32) :
    gainedCharge group (1.0 : Double) = group := by
  have hlt : group.toNat < 2 ^ 32 := group.toNat_lt
  have hmax : chargeMax = 2 ^ 32 - 1 := rfl
  unfold gainedCharge
  rw [nearest_ofNat_mul_one (by omega), Nat.min_eq_left (by omega)]
  exact UInt32.ofNat_toNat

variable {p : Propagation Double} {budget : Nat} {source source' : σ}

theorem Carried.gain_eq_one (hnone : p.models.ionization.model = .none)
    {flights : List (GroupFlight Double)}
    (h : p.Carried budget source flights source') :
    ∀ f ∈ flights, f.outcome.gain = 1.0 := by
  induction h with
  | done => simp
  | flight flown _ ih =>
      intro f hf
      obtain rfl | hf := List.mem_cons.mp hf
      · obtain ⟨_, _, last, _, hcourse, _, _, houtcome, _, _⟩ :=
          Transport.propagate_result_eq_ok_iff.mp flown
        rw [houtcome]
        exact hcourse.gain_eq_one hnone rfl
      · exact ih f hf

section Loads

variable [Scalar α] (p : Propagation α)

theorem index_of_mem_loads {numbered : Deposit α × Nat}
    {load : Deposit α × Nat × UInt32} (h : load ∈ p.loads numbered) :
    load.2.1 = numbered.2 := by
  unfold loads at h
  split at h
  · obtain ⟨group, -, rfl⟩ := List.mem_map.mp h
    rfl
  · cases h

theorem filter_loads_self (d : Deposit α) (i : Nat) :
    (p.loads (d, i)).filter (·.2.1 = i) = p.loads (d, i) := by
  refine List.filter_eq_self.mpr fun load hload => ?_
  exact decide_eq_true (p.index_of_mem_loads hload)

theorem filter_loads_of_lt {deposits : List (Deposit α)} {i k : Nat}
    (h : i < k) :
    ((deposits.zipIdx k).flatMap p.loads).filter (·.2.1 = i) = [] := by
  refine List.filter_eq_nil_iff.mpr fun load hload => ?_
  obtain ⟨numbered, hnumbered, hload⟩ := List.mem_flatMap.mp hload
  have hindex := p.index_of_mem_loads hload
  have hk := List.le_snd_of_mem_zipIdx hnumbered
  simp only [decide_eq_true_eq]
  omega

theorem filter_loads {deposits : List (Deposit α)} {i : Nat} {d : Deposit α}
    (h : deposits[i]? = some d) (k : Nat) :
    ((deposits.zipIdx k).flatMap p.loads).filter (·.2.1 = k + i) =
      p.loads (d, k + i) := by
  induction deposits generalizing i k with
  | nil => simp at h
  | cons first rest ih =>
      rw [List.zipIdx_cons, List.flatMap_cons, List.filter_append]
      cases i with
      | zero =>
          obtain rfl : first = d := by simpa using h
          rw [Nat.add_zero, p.filter_loads_self,
            p.filter_loads_of_lt (Nat.lt_succ_self k), List.append_nil]
      | succ i =>
          have hfirst : (p.loads (first, k)).filter (·.2.1 = k + (i + 1)) =
              [] := by
            refine List.filter_eq_nil_iff.mpr fun load hload => ?_
            have hindex := p.index_of_mem_loads hload
            simp only [decide_eq_true_eq]
            omega
          have hrest := ih (i := i) (by simpa using h) (k + 1)
          rw [Nat.add_right_comm] at hrest
          rw [hfirst, List.nil_append]
          exact hrest

theorem sum_loads_self (d : Deposit α) (i : Nat) :
    ((p.loads (d, i)).map (·.2.2.toNat)).sum =
      if p.accepts d then d.charge.toNat else 0 := by
  unfold loads
  split
  · rw [List.map_map]
    exact p.sum_groups d
  · rfl

end Loads

/-- Without multiplication, the records of the flights of one deposit hold the
carriers of its groups. -/
theorem Carried.charges (hnone : p.models.ionization.model = .none)
    {flights : List (GroupFlight Double)}
    (h : p.Carried budget source flights source') (i : Nat) :
    (((flights.map p.record).filter (·.deposit = i)).map (·.charge.toNat)) =
      ((flights.map GroupFlight.load).filter (·.2.1 = i)).map
        (·.2.2.toNat) := by
  rw [List.filter_map, List.filter_map, List.map_map, List.map_map]
  refine List.map_congr_left fun f hf => ?_
  have hgain := h.gain_eq_one hnone f (List.mem_of_mem_filter hf)
  change (gainedCharge f.group f.outcome.gain).toNat = f.group.toNat
  rw [hgain, gainedCharge_one]

/-- Without multiplication, the charges that name a deposit add up to the
charge of the deposit if it is propagated; if it is skipped there are none. -/
theorem charge_conserved (hnone : p.models.ionization.model = .none)
    {deposits : List (Deposit Double)} {totals totals' : RunTotals}
    {threshold : Option Level} {output : EventOutput Double}
    {journal : Journal Double}
    (h : (p.runEvent budget deposits source totals).runFrom threshold =
      (.ok (output, source', totals'), journal)) {i : Nat}
    {d : Deposit Double} (hi : deposits[i]? = some d) :
    ((output.charges.toList.filter (·.deposit = i)).map
        (·.charge.toNat)).sum =
        (if p.accepts d then d.charge.toNat else 0) ∧
      (p.accepts d = false →
        output.charges.toList.filter (·.deposit = i) = []) := by
  obtain ⟨entries, hcarried, hloads, -, haccounts⟩ := runEvent_accounts h
  have hself : ((EventEntry.flights entries).map GroupFlight.load).filter
      (·.2.1 = i) = p.loads (d, i) := by
    have hfilter := p.filter_loads hi 0
    simp only [Nat.zero_add] at hfilter
    rw [hloads, hfilter]
  have hcharges := hcarried.charges hnone i
  rw [hself, ← haccounts.charges] at hcharges
  constructor
  · rw [hcharges, p.sum_loads_self]
  · intro hskipped
    rw [loads, if_neg (by simp [hskipped]), List.map_nil] at hcharges
    exact List.map_eq_nil_iff.mp hcharges

theorem charge_conserved_threeDeposits :
    thinPropagation.models.ionization.model = .none ∧
      threeDeposits[0]? = some (.electrons .zero 25) ∧
      ∃ output : EventOutput Double, output.charges.size = 2 ∧
        ((output.charges.toList.filter (·.deposit = 0)).map
          (·.charge.toNat)).sum = 25 := by
  have hruns : (match (thinPropagation.runEvent 2 threeDeposits
        Transport.middleWords .zero).runFrom none with
      | (.ok (output, _, _), _) => output.charges.size
      | _ => 0) = 2 := by
    decide +kernel
  refine ⟨rfl, rfl, ?_⟩
  cases hrun : (thinPropagation.runEvent 2 threeDeposits Transport.middleWords
      .zero).runFrom none with
  | mk ended journal =>
      rw [hrun] at hruns
      cases ended with
      | error fault => cases hruns
      | ok event =>
          obtain ⟨output, source', totals'⟩ := event
          obtain ⟨hsum, -⟩ := charge_conserved rfl hrun (i := 0) rfl
          exact ⟨output, hruns, hsum⟩

end Propagation

end CarrierTransport
