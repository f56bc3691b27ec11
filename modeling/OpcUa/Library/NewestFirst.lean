import Mathlib.Data.List.Induction
import Mathlib.Order.Lattice

/-!
Lists with the newest item first, where newer items have larger keys. A page has the oldest of the
wanted items from a key on. A search from the newest item on that stops at the same number finds
other items, except when nothing has to be cut off.
-/

namespace NewestFirst

open List

variable {Item Key : Type} [LinearOrder Key] {key : Item → Key} {wanted passed : Item → Bool}
  {items : List Item} {limit : Nat}

def Descending (key : Item → Key) (items : List Item) : Prop :=
  items.Pairwise fun newer older => key older < key newer

def since (key : Item → Key) (start : Key) (items : List Item) : List Item :=
  items.filter fun item => start ≤ key item

def ahead (key : Item → Key) (wanted : Item → Bool) (items : List Item) (item : Item) : Nat :=
  (items.filter fun other => wanted other && decide (key item < key other)).length

theorem ahead_cons (first item : Item) : ahead key wanted (first :: items) item =
    ahead key wanted items item + if wanted first = true ∧ key item < key first then 1 else 0 := by
  rw [ahead, ahead, filter_cons]
  by_cases counts : wanted first = true ∧ key item < key first
  · simp [counts]
  · rw [if_neg counts, if_neg]
    · omega
    · rw [Bool.and_eq_true, decide_eq_true_eq]
      exact counts

theorem ahead_of_newest {item : Item} (newest : ∀ other ∈ items, key other ≤ key item) :
    ahead key wanted items item = 0 := by
  rw [ahead, length_eq_zero_iff, filter_eq_nil_iff]
  intro other member counts
  rw [Bool.and_eq_true, decide_eq_true_eq] at counts
  exact absurd counts.2 (not_lt.mpr (newest other member))

theorem take_filter (descending : Descending key items) (few : (items.filter wanted).length ≤ limit)
    (agree : ∀ item ∈ items, ahead key wanted items item < limit → passed item = wanted item) :
    (items.filter passed).take limit = items.filter wanted := by
  induction items generalizing limit with
  | nil => simp
  | cons first items ih =>
    obtain ⟨newest, descending⟩ := pairwise_cons.mp descending
    have none : ahead key wanted (first :: items) first = 0 := by
      apply ahead_of_newest
      intro other member
      rcases mem_cons.mp member with rfl | later
      · exact le_refl _
      · exact le_of_lt (newest other later)
    cases limit with
    | zero =>
      exact (eq_nil_of_length_eq_zero (Nat.le_zero.mp few)).symm
    | succ limit =>
      have same := agree first (mem_cons_self ..) (by omega)
      cases chosen : wanted first with
      | true =>
        rw [chosen] at same
        rw [filter_cons_of_pos same, filter_cons_of_pos chosen, take_succ_cons]
        congr 1
        apply ih descending
        · rw [filter_cons_of_pos chosen, length_cons] at few
          omega
        · intro item member fewer
          apply agree item (mem_cons_of_mem _ member)
          rw [ahead_cons, if_pos ⟨chosen, newest item member⟩]
          omega
      | false =>
        have dropped : ¬wanted first = true := by
          rw [chosen]
          exact Bool.false_ne_true
        rw [chosen] at same
        rw [filter_cons_of_neg (by rw [same]; exact Bool.false_ne_true), filter_cons_of_neg dropped]
        apply ih descending
        · rw [filter_cons_of_neg dropped] at few
          exact few
        · intro item member fewer
          apply agree item (mem_cons_of_mem _ member)
          rw [ahead_cons, if_neg fun counts => dropped counts.1]
          exact fewer

theorem ahead_since {start : Key} {item : Item} (from_start : start ≤ key item) :
    ahead key wanted (since key start items) item = ahead key wanted items item := by
  rw [ahead, ahead, since, filter_filter]
  congr 1
  apply filter_congr
  intro other _
  by_cases newer : key item < key other
  · simp [newer, from_start.trans (le_of_lt newer)]
  · simp [newer]

theorem pages_of_agree (descending : Descending key items)
    (few : (items.filter wanted).length ≤ limit)
    (agree : ∀ item ∈ items, ahead key wanted items item < limit → passed item = wanted item)
    (start : Key) : (((since key start items).filter passed).take limit).reverse =
      ((since key start items).reverse.filter wanted).take limit := by
  have part : (since key start items).Sublist items := filter_sublist
  have fewer := Nat.le_trans (part.filter wanted).length_le few
  have found : ((since key start items).filter passed).take limit =
      (since key start items).filter wanted := by
    apply take_filter (descending.sublist part) fewer
    intro item member ahead
    obtain ⟨present, later⟩ := mem_filter.mp member
    rw [ahead_since (of_decide_eq_true later)] at ahead
    exact agree item present ahead
  rw [found, filter_reverse, take_of_length_le]
  rw [length_reverse]
  exact fewer

theorem since_of_le {start : Key} (all : ∀ item ∈ items, start ≤ key item) :
    since key start items = items := by
  rw [since, filter_eq_self]
  intro item member
  exact decide_eq_true (all item member)

theorem filter_snoc (selected : Item → Bool) (items : List Item) (last : Item) :
    (items ++ [last]).filter selected =
      items.filter selected ++ if selected last then [last] else [] := by
  rw [filter_append, filter_cons]
  cases selected last <;> rfl

theorem since_snoc_of_lt {start : Key} {last : Item} (beyond : key last < start) :
    since key start (items ++ [last]) = since key start items := by
  rw [since, filter_snoc, decide_eq_false (not_le.mpr beyond)]
  exact append_nil _

theorem ahead_snoc {item last : Item} (older : ¬key item < key last) :
    ahead key wanted (items ++ [last]) item = ahead key wanted items item := by
  rw [ahead, ahead, filter_snoc, decide_eq_false older, Bool.and_false]
  exact congrArg List.length (append_nil _)

section Snoc

variable {last : Item}

theorem since_oldest (newer : ∀ item ∈ items, key last < key item) :
    since key (key last) (items ++ [last]) = items ++ [last] := by
  apply since_of_le
  intro item member
  rcases mem_append.mp member with other | same
  · exact le_of_lt (newer item other)
  · rw [mem_singleton.mp same]

theorem pages_of_snoc (descending : Descending key items)
    (newer : ∀ item ∈ items, key last < key item)
    (pages : ∀ start, (((since key start (items ++ [last])).filter passed).take limit).reverse =
      ((since key start (items ++ [last])).reverse.filter wanted).take limit) (start : Key) :
    (((since key start items).filter passed).take limit).reverse =
      ((since key start items).reverse.filter wanted).take limit := by
  by_cases beyond : key last < start
  · rw [← since_snoc_of_lt beyond]
    exact pages start
  -- a start before all items is as good as the oldest of them
  have all :=
    since_of_le fun item member => le_of_lt (lt_of_le_of_lt (not_lt.mp beyond) (newer item member))
  rw [all]
  rcases eq_nil_or_concat items with rfl | ⟨others, oldest, rfl⟩
  · simp
  · rw [concat_eq_append] at descending newer pages ⊢
    have found := pages (key oldest)
    have whole := since_oldest fun item member =>
      (pairwise_append.mp descending).2.2 item member oldest (mem_singleton_self _)
    rw [since_snoc_of_lt (newer oldest (mem_append_right _ (mem_singleton_self _))), whole] at found
    exact found

theorem ahead_oldest (newer : ∀ item ∈ items, key last < key item) :
    ahead key wanted (items ++ [last]) last = (items.filter wanted).length := by
  rw [ahead_snoc (lt_irrefl _), ahead]
  congr 1
  apply filter_congr
  intro other member
  rw [decide_eq_true (newer other member), Bool.and_true]

theorem agree_snoc (newer : ∀ item ∈ items, key last < key item)
    (agree : ∀ item ∈ items, ahead key wanted items item < limit → passed item = wanted item)
    (decided : (items.filter wanted).length < limit → passed last = wanted last) :
    ∀ item ∈ items ++ [last], ahead key wanted (items ++ [last]) item < limit →
      passed item = wanted item := by
  intro item member fewer
  rcases mem_append.mp member with present | also
  · rw [ahead_snoc (not_lt.mpr (le_of_lt (newer item present)))] at fewer
    exact agree item present fewer
  · rw [mem_singleton.mp also] at fewer ⊢
    rw [ahead_oldest newer] at fewer
    exact decided fewer

theorem decided_of_room (room : (items.filter wanted).length < limit)
    (taken : (items.filter passed).take limit = items.filter wanted)
    (found : ((((items ++ [last]).filter passed)).take limit).reverse =
      (((items ++ [last]).filter wanted).reverse).take limit) :
    passed last = wanted last ∧ ((items ++ [last]).filter wanted).length ≤ limit := by
  have size := congrArg List.length taken
  rw [length_take] at size
  have same : items.filter passed = items.filter wanted := by
    rwa [take_of_length_le (by omega)] at taken
  have short (chosen : Bool) :
      (items.filter wanted ++ if chosen then [last] else []).length ≤ limit := by
    rw [length_append]
    cases chosen
    · exact Nat.le_of_lt room
    · exact room
  rw [filter_snoc, filter_snoc, same, take_of_length_le (short _),
    take_of_length_le (by rw [length_reverse]; exact short _)] at found
  have ends := append_cancel_left (reverse_inj.mp found)
  rw [filter_snoc]
  refine ⟨?_, short _⟩
  cases one : passed last <;> cases other : wanted last
  · rfl
  · rw [one, other] at ends
    cases ends
  · rw [one, other] at ends
    cases ends
  · rfl

theorem unwanted_of_full (newer : ∀ item ∈ items, key last < key item) (positive : 0 < limit)
    (full : limit ≤ (items.filter wanted).length)
    (taken : (items.filter passed).take limit = items.filter wanted)
    (found : ((((items ++ [last]).filter passed)).take limit).reverse =
      (((items ++ [last]).filter wanted).reverse).take limit) : wanted last = false := by
  have size := congrArg List.length taken
  rw [length_take] at size
  by_contra chosen
  rw [Bool.not_eq_false] at chosen
  rw [filter_snoc, filter_snoc, take_append_of_le_length (by omega), taken, if_pos chosen,
    reverse_append, ← Nat.succ_pred_eq_of_pos positive] at found
  have member : last ∈ (items.filter wanted).reverse := by
    rw [found]
    exact mem_cons_self ..
  rw [mem_reverse] at member
  exact lt_irrefl _ (newer last (mem_filter.mp member).1)

end Snoc

theorem agree_of_pages (descending : Descending key items) (positive : 0 < limit)
    (pages : ∀ start, (((since key start items).filter passed).take limit).reverse =
      ((since key start items).reverse.filter wanted).take limit) :
    (items.filter wanted).length ≤ limit ∧
      ∀ item ∈ items, ahead key wanted items item < limit → passed item = wanted item := by
  induction items using List.reverseRecOn with
  | nil =>
    refine ⟨Nat.zero_le _, ?_⟩
    intro item member
    cases member
  | append_singleton items last ih =>
    obtain ⟨descending, -, newer⟩ := pairwise_append.mp descending
    have newer (item : Item) (member : item ∈ items) : key last < key item :=
      newer item member last (mem_singleton_self _)
    obtain ⟨few, agree⟩ := ih descending (pages_of_snoc descending newer pages)
    have taken := take_filter descending few agree
    have found := pages (key last)
    rw [since_oldest newer, filter_reverse] at found
    rcases Nat.lt_or_ge (items.filter wanted).length limit with room | full
    · obtain ⟨decided, short⟩ := decided_of_room room taken found
      exact ⟨short, agree_snoc newer agree fun _ => decided⟩
    · have skipped := unwanted_of_full newer positive full taken found
      refine ⟨?_, agree_snoc newer agree fun room => absurd room (not_lt.mpr full)⟩
      rw [filter_snoc, skipped, if_neg Bool.false_ne_true, append_nil]
      exact few

theorem pages_iff (descending : Descending key items) (positive : 0 < limit) :
    (∀ start, (((since key start items).filter passed).take limit).reverse =
      ((since key start items).reverse.filter wanted).take limit) ↔
    (items.filter wanted).length ≤ limit ∧
      ∀ item ∈ items, ahead key wanted items item < limit → passed item = wanted item :=
  ⟨agree_of_pages descending positive, fun ⟨few, agree⟩ => pages_of_agree descending few agree⟩

end NewestFirst
