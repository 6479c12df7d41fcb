import Mathlib.Data.List.Sort
import Stencil.Cache

/-! A cache told by times. A ledger notes for every entry when it was last used and knows no order of its
own; read from the longest unused entry to the last used one, it is what the cache holds after any requests,
and both give the same answers. -/
namespace Stencil

namespace Cache

/- What may be asked of a cache. -/
inductive Request (α : Type) where
  | get (key : String) (revision : Option Int)
  | put (entry : CacheEntry α)
  | clear
  deriving Repr

inductive Answer (α : Type) where
  | found (entry : Option (CacheEntry α))
  | stored
  | cleared (count : Nat)
  deriving Repr

variable {α : Type}

def Request.isLookup : Request α → Bool
  | .get .. => true
  | _ => false

def Answer.isHit : Answer α → Bool
  | .found entry => entry.isSome
  | _ => false

def serve (c : Cache α) : Request α → Answer α × Cache α
  | .get key revision =>
    let (entry, after) := c.get key revision
    (.found entry, after)
  | .put entry => (.stored, c.put entry)
  | .clear =>
    let (count, after) := c.clear
    (.cleared count, after)

/- Serves the requests one after the other. -/
def serveAll (c : Cache α) : List (Request α) → List (Answer α) × Cache α
  | [] => ([], c)
  | r :: rs =>
    let (answer, next) := c.serve r
    let (answers, last) := next.serveAll rs
    (answer :: answers, last)

end Cache

open Cache (Request Answer)

/- An entry and when it was last used. -/
structure Dated (α : Type) where
  entry : CacheEntry α
  used : Nat
  deriving Repr

/- What is held, in no particular order. A use counts if it found its entry or put it there. -/
structure Ledger (α : Type) where
  now : Nat
  held : List (Dated α)
  deriving Repr

namespace Ledger

variable {α : Type}

def empty : Ledger α := ⟨0, []⟩

def find? (l : Ledger α) (key : String) : Option (Dated α) := l.held.find? (·.entry.key == key)

def without (l : Ledger α) (key : String) : List (Dated α) := l.held.filter (·.entry.key != key)

/- Notes a use of the entry, which is the only one of its key. -/
def use (l : Ledger α) (entry : CacheEntry α) : Ledger α :=
  ⟨l.now + 1, ⟨entry, l.now⟩ :: l.without entry.key⟩

def usedAfter (time : Nat) (ds : List (Dated α)) : Nat := ds.countP (time < ·.used)

/- Keeps what fewer than `limit` others were used after. A limit of zero is none. -/
def recent (limit : Nat) (ds : List (Dated α)) : List (Dated α) :=
  if limit = 0 then ds else ds.filter (fun d => usedAfter d.used ds < limit)

def serve (limit : Nat) (l : Ledger α) : Request α → Answer α × Ledger α
  | .get key revision =>
    match l.find? key with
    | none => (.found none, l)
    | some d =>
      if revision.all (· == d.entry.revision) then (.found (some d.entry), l.use d.entry)
      else (.found none, { l with held := l.without key })
  | .put entry =>
    let noted := l.use entry
    (.stored, { noted with held := recent limit noted.held })
  | .clear => (.cleared l.held.length, { l with held := [] })

def serveAll (limit : Nat) (l : Ledger α) : List (Request α) → List (Answer α) × Ledger α
  | [] => ([], l)
  | r :: rs =>
    let (answer, next) := l.serve limit r
    let (answers, last) := next.serveAll limit rs
    (answer :: answers, last)

/- The entries by the time of their last use, the earliest first. -/
def listing (l : Ledger α) : List (CacheEntry α) :=
  (l.held.mergeSort (fun a b => a.used ≤ b.used)).map (·.entry)

/- The entries stand in the order of their last uses, each with a key of its own. -/
structure Lists (l : Ledger α) (ds : List (Dated α)) : Prop where
  held : ds.Perm l.held
  ordered : ds.Pairwise (·.used < ·.used)
  past : ∀ d ∈ ds, d.used < l.now
  single : ds.Pairwise (·.entry.key ≠ ·.entry.key)

variable {l : Ledger α} {ds : List (Dated α)} {limit : Nat}

/- The times settle the order. -/
theorem Lists.listing (lists : Lists l ds) : l.listing = ds.map (·.entry) := by
  have trans : ∀ a b c : Dated α, decide (a.used ≤ b.used) = true → decide (b.used ≤ c.used) = true →
      decide (a.used ≤ c.used) = true := by
    simp only [decide_eq_true_eq]
    omega
  have total : ∀ a b : Dated α, (decide (a.used ≤ b.used) || decide (b.used ≤ a.used)) = true := by
    simp only [Bool.or_eq_true, decide_eq_true_eq]
    omega
  have sorted := List.pairwise_mergeSort trans total l.held
  have perm := lists.held.trans (List.mergeSort_perm l.held (fun a b => a.used ≤ b.used)).symm
  have differ := lists.ordered.imp (fun below => Nat.ne_of_lt below)
  rw [perm.pairwise_iff Ne.symm] at differ
  have strict := (sorted.and differ).imp (fun both =>
    Nat.lt_of_le_of_ne (of_decide_eq_true both.1) both.2)
  have same := perm.eq_of_pairwise (fun a b _ _ below above => absurd above (Nat.lt_asymm below)) lists.ordered strict
  rw [Ledger.listing, same]

theorem foundOnly {key : String} {d : Dated α} (single : ds.Pairwise (·.entry.key ≠ ·.entry.key)) :
    ds.find? (·.entry.key == key) = some d ↔ d ∈ ds ∧ d.entry.key = key := by
  constructor
  · intro found
    exact ⟨List.mem_of_find?_eq_some found, by simpa using List.find?_some found⟩
  · intro found
    obtain ⟨member, same⟩ := found
    induction ds with
    | nil => cases member
    | cons other ds ih =>
      obtain ⟨first, single⟩ := List.pairwise_cons.mp single
      cases member with
      | head => simp [same]
      | tail _ later =>
        have differs : other.entry.key ≠ key := same ▸ first d later
        rw [List.find?_cons_of_neg (by simpa using differs)]
        exact ih single later

theorem Lists.finds (lists : Lists l ds) (key : String) : l.find? key = ds.find? (·.entry.key == key) := by
  have single := (lists.held.pairwise_iff Ne.symm).mp lists.single
  apply Option.ext
  intro d
  rw [Ledger.find?, foundOnly single, foundOnly lists.single, lists.held.mem_iff]

theorem Lists.without (lists : Lists l ds) (key : String) :
    Lists { l with held := l.without key } (ds.filter (·.entry.key != key)) where
  held := lists.held.filter _
  ordered := lists.ordered.filter _
  past := fun d member => lists.past d (List.mem_of_mem_filter member)
  single := lists.single.filter _

/- What is used stands behind all the others. -/
theorem Lists.use (lists : Lists l ds) (entry : CacheEntry α) :
    Lists (l.use entry) (ds.filter (·.entry.key != entry.key) ++ [⟨entry, l.now⟩]) := by
  have others := lists.without entry.key
  constructor
  · exact (List.perm_append_singleton _ _).trans (others.held.cons _)
  · rw [List.pairwise_append]
    refine ⟨others.ordered, List.pairwise_singleton _ _, ?_⟩
    intro d member last same
    rw [List.mem_singleton.mp same]
    exact others.past d member
  · intro d member
    cases List.mem_append.mp member with
    | inl before => exact Nat.lt_succ_of_lt (others.past d before)
    | inr last =>
      rw [List.mem_singleton.mp last]
      exact Nat.lt_succ_self _
  · rw [List.pairwise_append]
    refine ⟨others.single, List.pairwise_singleton _ _, ?_⟩
    intro d member last same
    rw [List.mem_singleton.mp same]
    simpa using (List.mem_filter.mp member).2

/- Of entries in the order of their last uses, those that fewer than `limit` others were used after are the
last `limit` ones. -/
theorem recentLast (ordered : ds.Pairwise (·.used < ·.used)) (limit : Nat) :
    ds.filter (fun d => usedAfter d.used ds < limit) = ds.drop (ds.length - limit) := by
  induction ds with
  | nil => simp
  | cons d ds ih =>
    obtain ⟨first, ordered⟩ := List.pairwise_cons.mp ordered
    have all : usedAfter d.used (d :: ds) = ds.length := by
      rw [usedAfter, List.countP_cons_of_neg (by simp), List.countP_eq_length]
      simpa using first
    have others : ds.filter (fun x => usedAfter x.used (d :: ds) < limit) =
        ds.filter (fun x => usedAfter x.used ds < limit) := by
      apply List.filter_congr
      intro x member
      have before : ¬ x.used < d.used := Nat.lt_asymm (first x member)
      rw [usedAfter, List.countP_cons_of_neg (by simpa using before)]
      rfl
    rw [List.filter_cons, all, others, ih ordered, List.length_cons]
    by_cases room : ds.length < limit
    · rw [if_pos (by simpa using room), Nat.sub_eq_zero_of_le (Nat.le_of_lt room),
        Nat.sub_eq_zero_of_le room]
      rfl
    · rw [if_neg (by simpa using room), Nat.succ_sub (Nat.le_of_not_lt room)]
      rfl

theorem Lists.recent (lists : Lists l ds) (limit : Nat) :
    Lists { l with held := recent limit l.held } (if limit = 0 then ds else ds.drop (ds.length - limit)) := by
  unfold Ledger.recent
  split
  · exact lists
  · have counted (d : Dated α) : usedAfter d.used l.held = usedAfter d.used ds :=
      (lists.held.countP_eq _).symm
    have kept : (ds.drop (ds.length - limit)).Sublist ds := List.drop_sublist _ _
    constructor
    · rw [← recentLast lists.ordered]
      simp only [counted]
      exact lists.held.filter _
    · exact lists.ordered.sublist kept
    · intro d member
      exact lists.past d (kept.subset member)
    · exact lists.single.sublist kept

end Ledger

namespace Cache

variable {α : Type} {c : Cache α} {l : Ledger α}

/- The cache holds what the ledger lists. -/
def Follows (c : Cache α) (l : Ledger α) : Prop := ∃ ds, l.Lists ds ∧ c.entries = ds.map (·.entry)

theorem othersMapped {ds : List (Dated α)} (same : c.entries = ds.map (·.entry)) (key : String) :
    c.others key = (ds.filter (·.entry.key != key)).map (·.entry) := by
  rw [others, same, List.filter_map]
  rfl

theorem getFollows (on : c.enabled = true) (follows : c.Follows l) (key : String) (revision : Option Int) :
    (c.serve (.get key revision)).1 = (l.serve c.limit (.get key revision)).1 ∧
      (c.serve (.get key revision)).2.Follows (l.serve c.limit (.get key revision)).2 := by
  obtain ⟨ds, lists, same⟩ := follows
  have looked : c.find? key = (l.find? key).map (·.entry) := by
    rw [find?, same, List.find?_map, lists.finds]
    rfl
  have off : (!c.enabled) = false := by simp [on]
  simp only [serve, get, off, Bool.false_eq_true, if_false, looked, Ledger.serve]
  cases found : l.find? key with
  | none => exact ⟨rfl, ds, lists, same⟩
  | some d =>
    have named : d.entry.key = key := by simpa using List.find?_some found
    have others := othersMapped same key
    have stale : revision.any (· != d.entry.revision) = !(revision.all (· == d.entry.revision)) := by
      cases revision <;> rfl
    simp only [Option.map_some, stale]
    cases current : revision.all (· == d.entry.revision) with
    | true =>
      have last := lists.use d.entry
      rw [named] at last
      exact ⟨rfl, _, last, by simp [others]⟩
    | false => exact ⟨rfl, _, lists.without key, others⟩

theorem putFollows (on : c.enabled = true) (follows : c.Follows l) (entry : CacheEntry α) :
    (c.serve (.put entry)).2.Follows (l.serve c.limit (.put entry)).2 := by
  obtain ⟨ds, lists, same⟩ := follows
  have last := (lists.use entry).recent c.limit
  have off : (!c.enabled) = false := by simp [on]
  refine ⟨_, last, ?_⟩
  simp only [serve, put, off, Bool.false_eq_true, if_false, shrink, othersMapped same]
  split
  · simp
  · simp [List.map_drop]

theorem serveFollows (on : c.enabled = true) (follows : c.Follows l) (r : Request α) :
    (c.serve r).1 = (l.serve c.limit r).1 ∧ (c.serve r).2.Follows (l.serve c.limit r).2 := by
  cases r with
  | get key revision => exact getFollows on follows key revision
  | put entry => exact ⟨rfl, putFollows on follows entry⟩
  | clear =>
    obtain ⟨ds, lists, same⟩ := follows
    refine ⟨?_, [], ⟨.refl _, .nil, by simp, .nil⟩, rfl⟩
    simp [serve, clear, size, Ledger.serve, same, lists.held.length_eq]

theorem serveCounts (on : c.enabled = true) (r : Request α) :
    (c.serve r).2.enabled = true ∧ (c.serve r).2.limit = c.limit ∧
      (c.serve r).2.hits = c.hits + (c.serve r).1.isHit.toNat ∧
      (c.serve r).2.hits + (c.serve r).2.misses = c.hits + c.misses + r.isLookup.toNat := by
  have off : (!c.enabled) = false := by simp [on]
  cases r with
  | get key revision =>
    simp only [serve, get, off, Bool.false_eq_true, if_false]
    cases c.find? key with
    | none => simp [on, Answer.isHit, Request.isLookup, Nat.add_assoc]
    | some entry =>
      dsimp only
      split
      · simp [on, Answer.isHit, Request.isLookup, Nat.add_assoc]
      · simp [on, Answer.isHit, Request.isLookup, Nat.add_right_comm]
  | put entry => simp [serve, put, on, Answer.isHit, Request.isLookup]
  | clear => simp [serve, clear, on, Answer.isHit, Request.isLookup]

theorem serveAllFollows (on : c.enabled = true) (follows : c.Follows l) (rs : List (Request α)) :
    (c.serveAll rs).1 = (l.serveAll c.limit rs).1 ∧ (c.serveAll rs).2.Follows (l.serveAll c.limit rs).2 := by
  induction rs generalizing c l with
  | nil => exact ⟨rfl, follows⟩
  | cons r rs ih =>
    obtain ⟨answer, next⟩ := serveFollows on follows r
    obtain ⟨on', limit, -⟩ := serveCounts on r
    obtain ⟨answers, last⟩ := ih on' next
    rw [limit] at answers last
    exact ⟨congr (congrArg List.cons answer) answers, last⟩

theorem serveAllCounts (on : c.enabled = true) (rs : List (Request α)) :
    (c.serveAll rs).2.hits = c.hits + (c.serveAll rs).1.countP Answer.isHit ∧
      (c.serveAll rs).2.hits + (c.serveAll rs).2.misses = c.hits + c.misses + rs.countP Request.isLookup := by
  induction rs generalizing c with
  | nil => exact ⟨rfl, rfl⟩
  | cons r rs ih =>
    obtain ⟨on', -, hits, lookups⟩ := serveCounts on r
    obtain ⟨allHits, allLookups⟩ := ih on'
    have counted (b : Bool) : b.toNat = if b = true then 1 else 0 := by cases b <;> rfl
    simp only [serveAll, List.countP_cons, ← counted]
    omega

/- A cache that is off keeps nothing and finds nothing. -/
theorem serveOff (off : c.enabled = false) (nothing : c.entries = []) (r : Request α) :
    (c.serve r).1.isHit = false ∧ (c.serve r).2 = c := by
  cases r with
  | get key revision => simp [serve, get, off, Answer.isHit]
  | put entry => simp [serve, put, off, Answer.isHit]
  | clear =>
    refine ⟨rfl, ?_⟩
    cases c
    cases nothing
    rfl

theorem serveAllOff (off : c.enabled = false) (nothing : c.entries = []) (rs : List (Request α)) :
    (∀ a ∈ (c.serveAll rs).1, a.isHit = false) ∧ (c.serveAll rs).2 = c := by
  induction rs with
  | nil => exact ⟨by simp [serveAll], rfl⟩
  | cons r rs ih =>
    obtain ⟨missed, same⟩ := serveOff off nothing r
    simp only [serveAll, same]
    exact ⟨List.forall_mem_cons.mpr ⟨missed, ih.1⟩, ih.2⟩

/- After any requests a cache that is on holds what the ledger lists, and has answered alike; the hits are the
lookups that found something. One that is off stays as it was. -/
theorem followsLedger (switch : Option String) (on : Bool) (limit : Int) (rs : List (Request α)) :
    let c : Cache α := start switch on limit
    let told := Ledger.empty.serveAll limit.toNat rs
    let (answers, after) := c.serveAll rs
    if c.enabled then
      answers = told.1 ∧ after.entries = told.2.listing ∧ after.hits = answers.countP Answer.isHit ∧
        after.hits + after.misses = rs.countP Request.isLookup
    else
      (∀ a ∈ answers, a.isHit = false) ∧ after.entries = [] ∧ after.hits = 0 ∧ after.misses = 0 := by
  have fresh : (start switch on limit : Cache α).Follows .empty := ⟨[], ⟨.refl _, .nil, by simp, .nil⟩, rfl⟩
  dsimp only
  cases opened : (start switch on limit : Cache α).enabled with
  | true =>
    obtain ⟨answers, ds, lists, held⟩ := serveAllFollows opened fresh rs
    obtain ⟨hits, lookups⟩ := serveAllCounts opened rs
    refine ⟨answers, ?_, ?_, ?_⟩
    · rw [held]
      exact lists.listing.symm
    · simpa [start, empty] using hits
    · simpa [start, empty] using lookups
  | false =>
    obtain ⟨missed, same⟩ := serveAllOff opened rfl rs
    simp only [Bool.false_eq_true, if_false, same]
    exact ⟨missed, rfl, rfl, rfl⟩

/- With room for two, what was put first stays if it was used in between. -/
example :
    let entry (key : String) : CacheEntry Nat := ⟨key, 0, 0⟩
    let told := Ledger.empty.serveAll 2
      [.put (entry "a"), .put (entry "b"), .get "a" none, .put (entry "c"), .get "c" (some 1)]
    told.2.listing.map (·.key) = ["a"] := by cbv

end Cache
end Stencil
