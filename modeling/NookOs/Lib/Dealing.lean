/-
Module: NookOs.Lib.Dealing
Purpose: Hosts that are taken in order until their room covers a target, and places that
  are dealt to hosts in rounds until the target is met or no host has room.
Trusted boundary: none
Main exports: cover, cover_append, cover_eq_or_covers, dealRound, countP_deal_le, give_mem_deal
-/
import Mathlib.Algebra.GroupWithZero.Nat
import Mathlib.Algebra.BigOperators.Group.List.Basic
import Mathlib.Algebra.Order.BigOperators.Group.List
import Mathlib.Algebra.Order.Group.Nat
import Mathlib.Data.Nat.Init

namespace NookOs.Lib.Dealing

variable {Host Place : Type*}

/-! ### Covering a target -/

section Covering

variable (room : Host → Nat) (target : Nat)

/-- Take hosts until what they cover reaches the target. -/
def cover : Nat → List Host → List Host
  | _, [] => []
  | covered, host :: rest =>
      if target ≤ covered then [] else host :: cover (covered + room host) rest

variable {room target} {covered : Nat} {hosts front back : List Host}

@[simp] theorem cover_nil : cover room target covered [] = [] := rfl

theorem cover_cons {host : Host} :
    cover room target covered (host :: hosts) =
      if target ≤ covered then []
      else host :: cover room target (covered + room host) hosts := rfl

theorem cover_of_le (reached : target ≤ covered) : cover room target covered hosts = [] := by
  cases hosts with
  | nil => rfl
  | cons host rest => rw [cover_cons, if_pos reached]

/-- What follows some hosts is taken after what these cover. -/
theorem cover_append :
    cover room target covered (front ++ back) =
      cover room target covered front ++
        cover room target (covered + (front.map room).sum) back := by
  induction front generalizing covered with
  | nil => simp
  | cons host front ih =>
      by_cases reached : target ≤ covered
      · have beyond : target ≤ covered + ((host :: front).map room).sum :=
          Nat.le_add_right_of_le reached
        rw [cover_of_le reached, cover_of_le reached, cover_of_le beyond, List.append_nil]
      · rw [List.cons_append, cover_cons, cover_cons, if_neg reached, if_neg reached,
          ih, List.map_cons, List.sum_cons, Nat.add_assoc, List.cons_append]

/-- A host is taken where those before it do not reach the target. -/
theorem mem_cover {host : Host} (short : covered + (front.map room).sum < target) :
    host ∈ cover room target covered (front ++ host :: back) := by
  rw [cover_append, cover_cons, if_neg (Nat.not_le.mpr short)]
  exact List.mem_append_right _ List.mem_cons_self

theorem cover_isPrefix (room : Host → Nat) (target covered : Nat) (hosts : List Host) :
    cover room target covered hosts <+: hosts := by
  induction hosts generalizing covered with
  | nil => exact List.prefix_refl _
  | cons host rest ih =>
      rw [cover_cons]
      split
      · exact List.nil_prefix
      · exact List.cons_prefix_cons.mpr ⟨rfl, ih _⟩

/-- Either all hosts are taken or those that are reach the target. -/
theorem cover_eq_or_covers (room : Host → Nat) (target covered : Nat) (hosts : List Host) :
    cover room target covered hosts = hosts ∨
      target ≤ covered + ((cover room target covered hosts).map room).sum := by
  induction hosts generalizing covered with
  | nil => exact .inl rfl
  | cons host rest ih =>
      rw [cover_cons]
      split
      · next reached => exact .inr (Nat.le_add_right_of_le reached)
      · rcases ih (covered + room host) with all | reached
        · exact .inl (congrArg (host :: ·) all)
        · rw [List.map_cons, List.sum_cons, ← Nat.add_assoc]
          exact .inr reached

/-- Before a host that is taken, the target is not reached. -/
theorem short_of_mem_cover {host : Host} {taken : List Host}
    (same : cover room target covered hosts = taken ++ host :: back) :
    covered + (taken.map room).sum < target := by
  induction hosts generalizing covered taken with
  | nil => simp at same
  | cons first rest ih =>
      rw [cover_cons] at same
      split at same
      · simp at same
      · next short =>
          cases taken with
          | nil => simpa using short
          | cons other taken =>
              rw [List.cons_append] at same
              obtain ⟨rfl, sameRest⟩ := List.cons.inj same
              have later := ih sameRest
              rw [List.map_cons, List.sum_cons]
              omega

end Covering

/-! ### Dealing in rounds -/

section Rounds

variable (room : Host → Nat) (give : Host → Nat → Place) (target : Nat)

/-- One place for each host that has room for another round, up to the target. -/
def dealRound (round : Nat) : List Host → List Place → List Place
  | [], dealt => dealt
  | host :: rest, dealt =>
      if target ≤ dealt.length then dealt
      else if room host ≤ round then dealRound round rest dealt
      else dealRound round rest (dealt ++ [give host round])

theorem prefix_dealRound (round : Nat) (hosts : List Host) (dealt : List Place) :
    dealt <+: dealRound room give target round hosts dealt := by
  induction hosts generalizing dealt with
  | nil => exact List.prefix_refl _
  | cons host rest ih =>
      rw [dealRound]
      split
      · exact List.prefix_refl _
      · split
        · exact ih dealt
        · exact (List.prefix_append _ _).trans (ih _)

/-- Rounds until the target is met or a round deals nothing. -/
def deal (hosts : List Host) (round : Nat) (dealt : List Place) : List Place :=
  if dealt.length < target then
    if (dealRound room give target round hosts dealt).length = dealt.length then
      dealRound room give target round hosts dealt
    else deal hosts (round + 1) (dealRound room give target round hosts dealt)
  else dealt
termination_by target - dealt.length
decreasing_by
  have grows := (prefix_dealRound room give target round hosts dealt).length_le
  omega

/-- What a round deals without a target. -/
def row (hosts : List Host) (round : Nat) : List Place :=
  (hosts.filter (round < room ·)).map (give · round)

/-- The rounds from the first. -/
def turns (hosts : List Host) (rounds : Nat) : List Place :=
  (List.range rounds).flatMap (row room give hosts)

variable {room give target} {hosts : List Host} {dealt : List Place} {round rounds : Nat}

theorem dealRound_eq (room : Host → Nat) (give : Host → Nat → Place) (round : Nat)
    (hosts : List Host) (fits : dealt.length ≤ target) :
    dealRound room give target round hosts dealt =
      (dealt ++ row room give hosts round).take target := by
  induction hosts generalizing dealt with
  | nil =>
      change dealt = (dealt ++ []).take target
      rw [List.append_nil, List.take_of_length_le fits]
  | cons host rest ih =>
      rw [dealRound]
      split
      · next met => rw [List.take_append_of_le_length met, List.take_of_length_le fits]
      · next short =>
          split
          · next full =>
              rw [ih fits, row, row, List.filter_cons_of_neg (by simpa using full)]
          · next free =>
              have fitsNext : (dealt ++ [give host round]).length ≤ target := by
                rw [List.length_append, List.length_singleton]
                omega
              rw [ih fitsNext, row, row,
                List.filter_cons_of_pos (by simpa using free), List.map_cons,
                List.append_assoc, List.singleton_append]

@[simp] theorem turns_zero : turns room give hosts 0 = [] := rfl

theorem turns_succ :
    turns room give hosts (rounds + 1) = turns room give hosts rounds ++
      row room give hosts rounds := by
  rw [turns, List.range_succ, List.flatMap_append, List.flatMap_singleton, ← turns]

theorem turns_isPrefix (room : Host → Nat) (give : Host → Nat → Place) (hosts : List Host)
    {more : Nat} (le : rounds ≤ more) :
    turns room give hosts rounds <+: turns room give hosts more := by
  induction more, le using Nat.le_induction with
  | base => exact List.prefix_refl _
  | succ more le ih =>
      rw [turns_succ]
      exact ih.trans (List.prefix_append _ _)

/-- A round in which no host has room is the last that matters. -/
theorem turns_of_row_nil {more : Nat} (last : row room give hosts rounds = [])
    (le : rounds ≤ more) : turns room give hosts more = turns room give hosts rounds := by
  induction more, le using Nat.le_induction with
  | base => rfl
  | succ more le ih =>
      rw [row, List.map_eq_nil_iff, List.filter_eq_nil_iff] at last
      have later : row room give hosts more = [] := by
        rw [row, List.map_eq_nil_iff, List.filter_eq_nil_iff]
        intro host member
        have full := last host member
        simp only [decide_eq_true_eq] at full ⊢
        omega
      rw [turns_succ, ih, later, List.append_nil]

/-- The rounds that were dealt are the first of the turns. -/
theorem deal_eq_of_turns (bounded : ∀ host ∈ hosts, room host ≤ rounds) (le : round ≤ rounds)
    (sofar : dealt = (turns room give hosts round).take target) :
    deal room give target hosts round dealt = (turns room give hosts rounds).take target := by
  induction round, dealt using deal.induct room give target hosts with
  | case1 round dealt short stuck =>
      have whole : dealt = turns room give hosts round := by
        rw [sofar] at short ⊢
        exact List.take_of_length_le (by rw [List.length_take] at short; omega)
      have after := dealRound_eq room give round hosts short.le
      have nothing : row room give hosts round = [] := by
        rw [after, List.length_take, List.length_append] at stuck
        exact List.eq_nil_of_length_eq_zero (by omega)
      rw [deal, if_pos short, if_pos stuck, after, nothing, List.append_nil,
        turns_of_row_nil nothing le, whole]
  | case2 round dealt short goesOn ih =>
      have whole : dealt = turns room give hosts round := by
        rw [sofar] at short ⊢
        exact List.take_of_length_le (by rw [List.length_take] at short; omega)
      have after := dealRound_eq room give round hosts short.le
      have further : round + 1 ≤ rounds := by
        by_contra last
        have nothing : row room give hosts round = [] := by
          rw [row, List.map_eq_nil_iff, List.filter_eq_nil_iff]
          intro host member
          have atMost := bounded host member
          simp only [decide_eq_true_eq]
          omega
        rw [after, nothing, List.append_nil, List.take_of_length_le short.le] at goesOn
        exact goesOn rfl
      rw [deal, if_pos short, if_neg goesOn]
      exact ih further (by rw [after, whole, turns_succ])
  | case3 round dealt met =>
      rw [deal, if_neg met, sofar]
      obtain ⟨later, isLater⟩ := turns_isPrefix room give hosts le
      rw [← isLater, List.take_append_of_le_length]
      rw [sofar, List.length_take] at met
      omega

/-- What is dealt are the first turns, as many as the target says. -/
theorem deal_eq_take (bounded : ∀ host ∈ hosts, room host ≤ rounds) :
    deal room give target hosts 0 [] = (turns room give hosts rounds).take target :=
  deal_eq_of_turns bounded (Nat.zero_le rounds) List.take_nil.symm

section Counting

variable {isOf : Place → Bool} {isHost : Host → Bool}

/-- Another round has a place for each host that has room for it. -/
theorem countP_row (gives : ∀ host ∈ hosts, ∀ round, isOf (give host round) = isHost host) :
    ((hosts.filter isHost).map fun host => min (room host) (rounds + 1)).sum =
      ((hosts.filter isHost).map fun host => min (room host) rounds).sum +
        (row room give hosts rounds).countP isOf := by
  induction hosts with
  | nil => rfl
  | cons host rest ih =>
      have later := ih fun other member =>
        gives other (List.mem_cons_of_mem host member)
      have here := gives host List.mem_cons_self rounds
      rw [row] at later ⊢
      by_cases owns : isHost host = true <;> by_cases free : rounds < room host
      · rw [List.filter_cons_of_pos owns, List.filter_cons_of_pos (by simpa using free),
          List.map_cons, List.map_cons, List.map_cons, List.sum_cons, List.sum_cons,
          List.countP_cons_of_pos (here.trans owns), later]
        omega
      · rw [List.filter_cons_of_pos owns, List.filter_cons_of_neg (by simpa using free),
          List.map_cons, List.map_cons, List.sum_cons, List.sum_cons, later]
        omega
      · rw [List.filter_cons_of_neg owns, List.filter_cons_of_pos (by simpa using free),
          List.map_cons, List.countP_cons_of_neg (here ▸ owns), later]
      · rw [List.filter_cons_of_neg owns, List.filter_cons_of_neg (by simpa using free), later]

theorem countP_turns (room : Host → Nat) (rounds : Nat) (isHost : Host → Bool)
    (gives : ∀ host ∈ hosts, ∀ round, isOf (give host round) = isHost host) :
    (turns room give hosts rounds).countP isOf =
      ((hosts.filter isHost).map fun host => min (room host) rounds).sum := by
  induction rounds with
  | zero =>
      symm
      rw [turns_zero, List.countP_nil, List.sum_eq_zero_iff]
      intro amount member
      obtain ⟨host, -, rfl⟩ := List.mem_map.mp member
      exact Nat.min_zero _
  | succ rounds ih =>
      rw [turns_succ, List.countP_append, ih, countP_row gives]

/-- Every host has a bound. -/
theorem exists_bound (room : Host → Nat) (hosts : List Host) :
    ∃ rounds, ∀ host ∈ hosts, room host ≤ rounds :=
  ⟨(hosts.map room).sum, fun host member =>
    List.le_sum_of_mem (List.mem_map.mpr ⟨host, member, rfl⟩)⟩

theorem sum_min {taken : List Host} (bounded : ∀ host ∈ taken, room host ≤ rounds) :
    (taken.map fun host => min (room host) rounds).sum = (taken.map room).sum :=
  congrArg List.sum (List.map_congr_left fun host member => Nat.min_eq_left (bounded host member))

/-- As much is dealt as the target and the room allow. -/
theorem length_deal (room : Host → Nat) (give : Host → Nat → Place) (target : Nat)
    (hosts : List Host) :
    (deal room give target hosts 0 []).length = min target (hosts.map room).sum := by
  obtain ⟨rounds, bounded⟩ := exists_bound room hosts
  have all : (turns room give hosts rounds).countP (fun _ => true) = _ :=
    countP_turns room rounds (fun _ => true) fun _ _ _ => rfl
  rw [List.countP_true, List.filter_true, sum_min bounded] at all
  rw [deal_eq_take bounded, List.length_take, all]

/-- No host is dealt more than it has room for. -/
theorem countP_deal_le (gives : ∀ host ∈ hosts, ∀ round, isOf (give host round) = isHost host) :
    (deal room give target hosts 0 []).countP isOf ≤ ((hosts.filter isHost).map room).sum := by
  obtain ⟨rounds, bounded⟩ := exists_bound room hosts
  rw [deal_eq_take bounded, ← sum_min fun host member =>
    bounded host (List.mem_of_mem_filter member), ← countP_turns room rounds isHost gives]
  exact (List.take_sublist target _).countP_le

end Counting

theorem mem_turns {place : Place} (member : place ∈ turns room give hosts rounds) :
    ∃ host ∈ hosts, ∃ round < room host, place = give host round := by
  obtain ⟨round, -, inRow⟩ := List.mem_flatMap.mp member
  obtain ⟨host, found, rfl⟩ := List.mem_map.mp inRow
  rw [List.mem_filter, decide_eq_true_eq] at found
  exact ⟨host, found.1, round, found.2, rfl⟩

/-- A place is one that a host with room gave. -/
theorem mem_deal {place : Place} (member : place ∈ deal room give target hosts 0 []) :
    ∃ host ∈ hosts, ∃ round < room host, place = give host round := by
  obtain ⟨rounds, bounded⟩ := exists_bound room hosts
  rw [deal_eq_take bounded] at member
  exact mem_turns (List.mem_of_mem_take member)

/-- A host with room is dealt a place where those before it cannot meet the target. -/
theorem give_mem_deal {host : Host} {front back : List Host} (free : 0 < room host)
    (short : (front.map room).sum < target) :
    give host 0 ∈ deal room give target (front ++ host :: back) 0 [] := by
  obtain ⟨rounds, bounded⟩ := exists_bound room (front ++ host :: back)
  have roundOne : 1 ≤ rounds :=
    free.trans_le (bounded host (List.mem_append_right front List.mem_cons_self))
  obtain ⟨later, isLater⟩ := turns_isPrefix room give (front ++ host :: back) roundOne
  -- the first round gives at most one place to each host before this one
  have before : ((front.filter (0 < room ·)).map (give · 0)).length < target := by
    rw [List.length_map]
    refine Nat.lt_of_le_of_lt ?_ short
    clear short bounded isLater
    induction front with
    | nil => exact Nat.zero_le _
    | cons first front ih =>
        rw [List.filter_cons, List.map_cons, List.sum_cons]
        split
        · next hasRoom =>
            rw [decide_eq_true_eq] at hasRoom
            rw [List.length_cons]
            omega
        · omega
  have first : turns room give (front ++ host :: back) 1 =
      (front.filter (0 < room ·)).map (give · 0) ++
        give host 0 :: (back.filter (0 < room ·)).map (give · 0) := by
    rw [turns_succ, turns_zero, List.nil_append, row, List.filter_append,
      List.filter_cons_of_pos (by simpa using free), List.map_append, List.map_cons]
  rw [deal_eq_take bounded, ← isLater, first, List.append_assoc, List.cons_append,
    List.take_append, List.take_cons (by omega)]
  exact List.mem_append_right _ List.mem_cons_self

end Rounds

end NookOs.Lib.Dealing
