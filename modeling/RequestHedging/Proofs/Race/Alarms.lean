import RequestHedging.Proofs.Race.Flights

/-!
# Alarms in one queue

Requests on one clock may keep the attempts of theirs that wait in one queue, in the order in which
they began to wait, whosever they are.  When it is rung, those whose waiting is over go on in one
order for all.  Each request finds its own in the order in which they would go on without the
others (`Flights.rouse_eq_wake`), because the order of two attempts of a request depends on nothing
of another request: that of the times they waited for, that in which their calls were opened, and
among equal ones that in which they began to wait, which sorting keeps.
-/

namespace RequestHedging.Race

variable {In Out : Type}

/-- What belongs to one request, of things that belong to requests by number. -/
def own {α : Type} (i : Nat) (things : List (Nat × α)) : List α :=
  things.filterMap fun x => if x.1 = i then some x.2 else none

/-- An attempt that waits, and the number of its request. -/
abbrev Sleeper (In Out : Type) := Nat × Alarm × Flight In Out

def Moment.of (now : Instant) (opened : List (Nat × Nat)) (i : Nat) : Moment := ⟨now, own i opened⟩

namespace Sleeper

def hasRung (now : Instant) (opened : List (Nat × Nat)) (s : Sleeper In Out) : Bool :=
  s.2.1.hasRung (.of now opened s.1)

/-- Where an attempt stands among those of all requests that can go on again: by the time it waited
for, and after those by the order of opening. -/
def order (now : Instant) (opened : List (Nat × Nat)) (s : Sleeper In Out) : Nat :=
  match s.2.1 with
  | .time t => t
  | .opening call => now + 1 + opened.idxOf (s.1, call)
  | .never => 0

/-- The attempts of a queue whose waiting is over, in the order in which they can go on. -/
def rung (now : Instant) (opened : List (Nat × Nat)) (queue : List (Sleeper In Out)) :
    List (Sleeper In Out) :=
  (queue.filter (hasRung now opened)).mergeSort fun a b => order now opened a ≤ order now opened b

def still (now : Instant) (opened : List (Nat × Nat)) (queue : List (Sleeper In Out)) :
    List (Sleeper In Out) :=
  queue.filter fun s => !hasRung now opened s

end Sleeper

/-- The attempts of a request after the queue of all requests was rung. -/
def Flights.rouse (f : Flights In Out) (now : Instant) (opened : List (Nat × Nat)) (i : Nat)
    (queue : List (Sleeper In Out)) : Flights In Out :=
  { f with
    ready := f.ready ++ (own i (Sleeper.rung now opened queue)).map Prod.snd
    waiting := own i (Sleeper.still now opened queue) }

/-! ## What belongs to one request -/

section Own

variable {α : Type} {i k : Nat}

theorem own_cons_self (i : Nat) (a : α) (things : List (Nat × α)) :
    own i ((i, a) :: things) = a :: own i things :=
  List.filterMap_cons_some (if_pos rfl)

theorem own_cons_of_ne (h : k ≠ i) (a : α) (things : List (Nat × α)) :
    own i ((k, a) :: things) = own i things :=
  List.filterMap_cons_none (if_neg h)

theorem own_append (i : Nat) (things things' : List (Nat × α)) :
    own i (things ++ things') = own i things ++ own i things' :=
  List.filterMap_append

theorem own_eq_map (i : Nat) (things : List (Nat × α)) :
    own i things = (things.filter fun x => x.1 = i).map Prod.snd := by
  induction things with
  | nil => rfl
  | cons x things ih =>
    obtain ⟨k, a⟩ := x
    by_cases hk : k = i
    · subst hk
      simp [own_cons_self, ih]
    · simp [own_cons_of_ne hk, ih, hk]

/-- Of what belongs to a request all is its own, and nothing another's. -/
theorem own_map (i k : Nat) (as : List α) :
    own i (as.map fun a => (k, a)) = if k = i then as else [] := by
  induction as with
  | nil => exact (ite_self []).symm
  | cons a as ih =>
    by_cases hk : k = i
    · subst hk
      rw [if_pos rfl] at ih ⊢
      rw [List.map_cons, own_cons_self, ih]
    · rw [if_neg hk] at ih ⊢
      rw [List.map_cons, own_cons_of_ne hk, ih]

/-- Things of requests in a row, each marked with the place of its request. -/
theorem own_flatMap_zipIdx {β : Type} (f : β → List α) (i n : Nat) (requests : List β) :
    own i ((requests.zipIdx n).flatMap fun x => (f x.1).map fun a => (x.2, a)) =
      if n ≤ i then requests[i - n]?.elim [] f else [] := by
  induction requests generalizing n with
  | nil => simp [own]
  | cons x requests ih =>
    rw [List.zipIdx_cons, List.flatMap_cons, own_append, own_map, ih]
    rcases Nat.lt_trichotomy n i with hlt | rfl | hgt
    · obtain ⟨k, rfl⟩ := Nat.exists_eq_add_of_lt hlt
      have hnext : n + k + 1 - n = k + 1 := by omega
      rw [if_neg (by omega), if_pos (by omega), if_pos (by omega), hnext, List.getElem?_cons_succ,
        show n + k + 1 - (n + 1) = k by omega]
      rfl
    · rw [if_pos rfl, if_neg (by omega), if_pos (Nat.le_refl n), Nat.sub_self, List.append_nil]
      rfl
    · rw [if_neg (by omega), if_neg (by omega), if_neg (by omega)]
      rfl

/-- What is asked of things of one request can be asked before the others are left out. -/
theorem own_filter (i : Nat) (things : List (Nat × α)) {p : Nat × α → Bool} {q : α → Bool}
    (h : ∀ a, p (i, a) = q a) : own i (things.filter p) = (own i things).filter q := by
  rw [own_eq_map, own_eq_map, List.filter_map, List.filter_filter, List.filter_filter]
  congr 1
  apply List.filter_congr
  rintro ⟨k, a⟩ _
  by_cases hk : k = i
  · subst hk
    simp [h]
  · simp [hk]

end Own

/-! ## Sorting keeps the order of a part -/

section Part

variable {α : Type}

/-- Two cuts of a list at the place where a test stops to hold are the same. -/
theorem append_inj_of_test {q : α → Bool} {l r l' r' : List α} (h : l ++ r = l' ++ r')
    (hl : ∀ a ∈ l, q a = true) (hr : ∀ a ∈ r, q a = false) (hl' : ∀ a ∈ l', q a = true)
    (hr' : ∀ a ∈ r', q a = false) : l = l' ∧ r = r' := by
  have hcut : ∀ {l r : List α}, (∀ a ∈ l, q a = true) → (∀ a ∈ r, q a = false) →
      (l ++ r).filter q = l := by
    intro l r hl hr
    rw [List.filter_append, List.filter_eq_self.mpr hl, List.filter_eq_nil_iff.mpr, List.append_nil]
    intro a ha
    simp [hr a ha]
  have hsame : l = l' := by rw [← hcut hl hr, h, hcut hl' hr']
  subst hsame
  exact ⟨rfl, List.append_cancel_left h⟩

/-- Part of a sorted list is that part of the list sorted. -/
theorem filter_mergeSort {le : α → α → Bool} (trans : ∀ a b c, le a b → le b c → le a c)
    (total : ∀ a b, le a b || le b a) (p : α → Bool) (l : List α) :
    (l.mergeSort le).filter p = (l.filter p).mergeSort le := by
  induction l with
  | nil => rw [List.filter_nil, List.mergeSort_nil, List.filter_nil]
  | cons a l ih =>
    obtain ⟨before, after, hsort, hrest, hbefore⟩ := List.mergeSort_cons trans total a l
    rw [hrest, List.filter_append] at ih
    rw [hsort, List.filter_append, List.filter_cons]
    by_cases hp : p a = true
    · -- both sides are cut where `a` stands, behind what is strictly less
      obtain ⟨before', after', hsort', hrest', hbefore'⟩ :=
        List.mergeSort_cons trans total a (l.filter p)
      have hafter : ∀ {l before after : List α}, (a :: l).mergeSort le = before ++ a :: after →
          ∀ b ∈ after, le a b = true := by
        intro l before after h b hb
        have hpairs := h ▸ List.pairwise_mergeSort trans total (a :: l)
        exact (List.pairwise_cons.mp (List.pairwise_append.mp hpairs).2.1).1 b hb
      obtain ⟨hleft, hright⟩ := append_inj_of_test (q := fun b => !le a b) (ih.trans hrest')
        (fun b hb => hbefore b (List.mem_of_mem_filter hb))
        (fun b hb => by simp [hafter hsort b (List.mem_of_mem_filter hb)])
        hbefore' (fun b hb => by simp [hafter hsort' b hb])
      rw [if_pos hp, List.filter_cons_of_pos hp, hsort', hleft, hright]
    · rw [if_neg hp, List.filter_cons_of_neg hp, ih]

end Part

/-! ## The order of one request -/

section Order

variable {now : Instant} {opened : List (Nat × Nat)} {i : Nat}

/-- Of two calls of a request the same was opened first among the calls of all requests. -/
theorem idxOf_le_idxOf_iff (opened : List (Nat × Nat)) (i call call' : Nat) :
    opened.idxOf (i, call) ≤ opened.idxOf (i, call') ↔
      (own i opened).idxOf call ≤ (own i opened).idxOf call' := by
  induction opened with
  | nil => exact Iff.rfl
  | cons c opened ih =>
    obtain ⟨k, n⟩ := c
    by_cases hk : k = i
    · subst hk
      have hsame : ∀ call : Nat, ((k, n) == (k, call)) = (n == call) := by simp
      rw [own_cons_self]
      simp only [List.idxOf_cons, hsame]
      cases n == call with
      | true => exact iff_of_true (Nat.zero_le _) (Nat.zero_le _)
      | false =>
        cases n == call' with
        | true => exact iff_of_false (Nat.not_succ_le_zero _) (Nat.not_succ_le_zero _)
        | false => exact Nat.succ_le_succ_iff.trans (ih.trans Nat.succ_le_succ_iff.symm)
    · have hne : ∀ call : Nat, (k, n) ≠ (i, call) := fun call h => hk (Prod.mk.inj h).1
      rw [own_cons_of_ne hk, List.idxOf_cons_ne _ (hne call), List.idxOf_cons_ne _ (hne call'),
        Nat.succ_le_succ_iff, ih]

/-- No time that is over is later than now, and what is never over has not rung. -/
theorem Alarm.cases_of_hasRung {m : Moment} {alarm : Alarm} (h : alarm.hasRung m = true) :
    (∃ t ≤ m.now, alarm = .time t) ∨ ∃ call, alarm = .opening call := by
  cases alarm with
  | time t => exact .inl ⟨t, of_decide_eq_true h, rfl⟩
  | opening call => exact .inr ⟨call, rfl⟩
  | never => cases h

/-- The order of two attempts of a request that can go on again is the same among all. -/
theorem order_le_order_iff {s s' : Alarm × Flight In Out}
    (hrung : s.1.hasRung (.of now opened i) = true)
    (hrung' : s'.1.hasRung (.of now opened i) = true) :
    Sleeper.order now opened (i, s) ≤ Sleeper.order now opened (i, s') ↔
      s.1.order (.of now opened i) ≤ s'.1.order (.of now opened i) := by
  obtain ⟨alarm, flight⟩ := s
  obtain ⟨alarm', flight'⟩ := s'
  have hlater : ∀ {t : Nat}, t ≤ now → ∀ n, t < now + 1 + n := fun ht n =>
    Nat.lt_of_lt_of_le (Nat.lt_succ_of_le ht) (Nat.le_add_right _ n)
  rcases Alarm.cases_of_hasRung hrung with ⟨t, ht, rfl⟩ | ⟨call, rfl⟩ <;>
    rcases Alarm.cases_of_hasRung hrung' with ⟨t', ht', rfl⟩ | ⟨call', rfl⟩
  · exact Iff.rfl
  · exact iff_of_true (Nat.le_of_lt (hlater ht _)) (Nat.le_of_lt (hlater ht _))
  · exact iff_of_false (Nat.not_le_of_lt (hlater ht' _)) (Nat.not_le_of_lt (hlater ht' _))
  · simp only [Sleeper.order, Alarm.order, Moment.of, Nat.add_le_add_iff_left]
    exact idxOf_le_idxOf_iff opened i call call'

end Order

/-! ## One request among all -/

section Rouse

variable {queue : List (Sleeper In Out)} {f : Flights In Out} {i : Nat}

/-- What is left waiting of one request is what it would leave by itself. -/
theorem own_still (now : Instant) (opened : List (Nat × Nat)) (i : Nat)
    (queue : List (Sleeper In Out)) :
    own i (Sleeper.still now opened queue) =
      (own i queue).filter fun w => !w.1.hasRung (.of now opened i) :=
  own_filter i queue fun _ => rfl

/-- So is what can go on, and in the same order. -/
theorem own_rung (now : Instant) (opened : List (Nat × Nat)) (i : Nat)
    (queue : List (Sleeper In Out)) :
    own i (Sleeper.rung now opened queue) =
      ((own i queue).filter fun w => w.1.hasRung (.of now opened i)).mergeSort
        fun a b => a.1.order (.of now opened i) ≤ b.1.order (.of now opened i) := by
  have hpart : own i (queue.filter (Sleeper.hasRung now opened)) =
      (own i queue).filter fun w => w.1.hasRung (.of now opened i) :=
    own_filter i queue fun _ => rfl
  rw [← hpart, Sleeper.rung, own_eq_map, filter_mergeSort, own_eq_map]
  · apply List.map_mergeSort
    rintro ⟨k, s⟩ hs ⟨k', s'⟩ hs'
    obtain ⟨hrung, hk⟩ := List.mem_filter.mp hs
    obtain ⟨hrung', hk'⟩ := List.mem_filter.mp hs'
    obtain rfl : k = i := of_decide_eq_true hk
    obtain rfl : k' = k := of_decide_eq_true hk'
    exact decide_eq_decide.mpr
      (order_le_order_iff (List.mem_filter.mp hrung).2 (List.mem_filter.mp hrung').2)
  · intro a b c hab hbc
    exact decide_eq_true (Nat.le_trans (of_decide_eq_true hab) (of_decide_eq_true hbc))
  · intro a b
    rw [Bool.or_eq_true, decide_eq_true_iff, decide_eq_true_iff]
    exact Nat.le_total _ _

namespace Flights

/-- What ringing the queue of all requests does to one of them is what it comes to by itself. -/
theorem rouse_eq_wake (h : own i queue = f.waiting) (now : Instant) (opened : List (Nat × Nat)) :
    f.rouse now opened i queue = f.wake (.of now opened i) := by
  rw [rouse, wake, own_rung, own_still, h]

/-- What was woken is not woken twice. -/
theorem wake_wake (f : Flights In Out) (m : Moment) : (f.wake m).wake m = f.wake m := by
  have hnone : (f.wake m).waiting.filter (fun w => w.1.hasRung m) = [] := by
    rw [List.filter_eq_nil_iff]
    exact fun w hw => by simp [f.hasRung_wake m w hw]
  have hall : (f.wake m).waiting.filter (fun w => !w.1.hasRung m) = (f.wake m).waiting := by
    rw [List.filter_eq_self]
    exact fun w hw => by simp [f.hasRung_wake m w hw]
  rw [wake, hnone, hall, List.mergeSort_nil, List.map_nil, List.append_nil]

end Flights

end Rouse

end RequestHedging.Race
