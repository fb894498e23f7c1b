import DocAccess.Cursor

/-!
# The order of listings

Keys are strictly and totally ordered, by time and then by identifier. The rows below
a position, newest first, are therefore a single list, of which a page is the beginning.
-/

set_option autoImplicit false

namespace DocAccess

theorem Timestamp.eq_of_nanos {a b : Timestamp} (same : a.nanos = b.nanos) : a = b := by
  rcases a with ⟨micros, ⟨rest, small⟩, lower, upper⟩
  rcases b with ⟨micros', ⟨rest', small'⟩, lower', upper'⟩
  simp only [nanos] at same
  have wholes : micros = micros' := by omega
  have rests : rest = rest' := by omega
  subst wholes rests
  rfl

theorem Timestamp.before_iff {a b : Timestamp} : a.before b = true ↔ a.nanos < b.nanos := by
  simp [before]

theorem Timestamp.before_total {a b : Timestamp} (different : a ≠ b) :
    a.before b = true ∨ b.before a = true := by
  rw [before_iff, before_iff]
  have distinct : a.nanos ≠ b.nanos := fun same => different (eq_of_nanos same)
  omega

theorem Uuid.before_iff {a b : Uuid} : a.before b = true ↔ compare a b = .lt := by
  simp [before]

theorem Uuid.before_irrefl (id : Uuid) : id.before id = false := by
  simp [before, Std.ReflCmp.compare_self]

theorem Uuid.before_total {a b : Uuid} (different : a ≠ b) :
    a.before b = true ∨ b.before a = true := by
  rw [before_iff, before_iff]
  cases order : compare a b with
  | lt => exact .inl rfl
  | eq => exact absurd (Std.LawfulEqCmp.eq_of_compare order) different
  | gt => exact .inr (Std.OrientedCmp.lt_of_gt order)

private theorem Uuid.compare_replicate_ne_lt (bytes : List UInt8) :
    compare (List.replicate bytes.length 255) bytes ≠ .lt := by
  induction bytes with
  | nil => exact Ordering.noConfusion
  | cons byte bytes ih =>
      rw [List.length_cons, List.replicate_succ, List.compare_cons_cons, ne_eq,
        Ordering.then_eq_lt]
      intro below
      rcases below with less | ⟨-, later⟩
      · have greater := UInt8.lt_iff_toNat_lt.1 (Std.compare_eq_lt.1 less)
        have small := byte.toNat_lt
        have most : (255 : UInt8).toNat = 255 := rfl
        omega
      · exact ih later

theorem Uuid.before_max {id : Uuid} (other : id ≠ max) : id.before max = true := by
  refine (before_total other).resolve_right ?_
  rw [before_iff, compare_eq]
  have bytes : max.bytes = List.replicate id.bytes.length 255 := by
    rw [id.length_eq]
    rfl
  rw [bytes]
  exact compare_replicate_ne_lt id.bytes

/-- A random identifier is not the greatest one: its version is in the way. -/
theorem Uuid.asRandom_ne_max (id : Uuid) : id.asRandom ≠ max := by
  intro same
  have long : 6 < id.bytes.length := by
    rw [id.length_eq]
    decide
  have marked : id.asRandom.bytes[6]? =
      some (UInt8.ofNat (id.bytes[6].toNat % 16 + 64)) := by
    simp [asRandom, long]
  rw [same] at marked
  have equal : (255 : UInt8) = UInt8.ofNat (id.bytes[6].toNat % 16 + 64) := Option.some.inj marked
  have numbers := congrArg UInt8.toNat equal
  rw [UInt8.toNat_ofNat'] at numbers
  have most : (255 : UInt8).toNat = 255 := rfl
  omega

namespace OrderKey

theorem before_iff {a b : OrderKey} :
    a.before b = true ↔
      a.time.before b.time = true ∨ a.time = b.time ∧ a.id.before b.id = true := by
  simp [before]

theorem before_irrefl (key : OrderKey) : key.before key = false := by
  simp [before, Timestamp.before, Uuid.before_irrefl]

theorem before_trans {a b c : OrderKey} (first : a.before b = true) (second : b.before c = true) :
    a.before c = true := by
  rw [before_iff, Timestamp.before_iff] at *
  rcases first with earlier | ⟨same, ids⟩
  · rcases second with later | ⟨same, _⟩
    · exact .inl (Int.lt_trans earlier later)
    · exact .inl (same ▸ earlier)
  · rcases second with later | ⟨same', ids'⟩
    · exact .inl (same ▸ later)
    · rw [Uuid.before_iff] at ids ids' ⊢
      exact .inr ⟨same.trans same', Std.TransCmp.lt_trans ids ids'⟩

theorem before_asymm {a b : OrderKey} (first : a.before b = true) : b.before a = false := by
  cases second : b.before a with
  | false => rfl
  | true =>
      have loop := before_trans first second
      rw [before_irrefl] at loop
      exact loop.symm

theorem before_total {a b : OrderKey} (different : a ≠ b) :
    a.before b = true ∨ b.before a = true := by
  rw [before_iff, before_iff]
  by_cases times : a.time = b.time
  · have ids : a.id ≠ b.id := by
      intro same
      cases a; cases b
      simp_all
    exact (Uuid.before_total ids).imp (fun order => .inr ⟨times, order⟩)
      fun order => .inr ⟨times.symm, order⟩
  · exact (Timestamp.before_total times).imp .inl .inl

private theorem before_of_not_before {a b c : OrderKey} (first : a.before b = true)
    (second : c.before b = false) : a.before c = true := by
  by_cases same : b = c
  · exact same ▸ first
  · rcases before_total same with below | above
    · exact before_trans first below
    · rw [above] at second
      cases second

end OrderKey

variable {α : Type}

/-- Whether a row may stand before another in a listing. -/
def precedes (key : α → OrderKey) (a b : α) : Bool :=
  !(key a).before (key b)

/-- The rows below a position, newest first. -/
def rowsBelow (key : α → OrderKey) (rows : List α) (position : OrderKey) : List α :=
  (rows.filter fun row => (key row).before position).mergeSort (precedes key)

/-- Keys that go down at every row. -/
def Descending (key : α → OrderKey) (rows : List α) : Prop :=
  rows.Pairwise fun earlier later => (key later).before (key earlier) = true

instance (key : α → OrderKey) (rows : List α) : Decidable (Descending key rows) :=
  inferInstanceAs (Decidable (rows.Pairwise _))

private theorem precedes_trans (key : α → OrderKey) (a b c : α) (first : precedes key a b = true)
    (second : precedes key b c = true) : precedes key a c = true := by
  simp only [precedes, Bool.not_eq_true'] at *
  cases third : (key a).before (key c) with
  | false => rfl
  | true =>
      have loop := OrderKey.before_of_not_before third second
      rw [first] at loop
      exact loop.symm

private theorem precedes_total (key : α → OrderKey) (a b : α) :
    (precedes key a b || precedes key b a) = true := by
  cases order : (key a).before (key b) with
  | false => simp [precedes, order]
  | true => simp [precedes, OrderKey.before_asymm order]

theorem mem_rowsBelow {key : α → OrderKey} {rows : List α} {position : OrderKey} {row : α} :
    row ∈ rowsBelow key rows position ↔ row ∈ rows ∧ (key row).before position = true := by
  simp [rowsBelow]

theorem rowsBelow_perm (key : α → OrderKey) (rows : List α) (position : OrderKey) :
    (rowsBelow key rows position).Perm (rows.filter fun row => (key row).before position) :=
  List.mergeSort_perm _ _

theorem descending_rowsBelow {key : α → OrderKey} {rows : List α}
    (distinct : (rows.map key).Nodup) (position : OrderKey) :
    Descending key (rowsBelow key rows position) := by
  have sorted := List.pairwise_mergeSort (precedes_trans key) (precedes_total key)
    (rows.filter fun row => (key row).before position)
  have different : (rowsBelow key rows position).Pairwise fun a b => key a ≠ key b := by
    have kept := (List.pairwise_map.1 distinct).filter fun row => (key row).before position
    exact (rowsBelow_perm key rows position).symm.pairwise kept fun apart => Ne.symm apart
  refine (sorted.and different).imp ?_
  rintro a b ⟨order, apart⟩
  simp only [precedes, Bool.not_eq_true'] at order
  rcases OrderKey.before_total apart with below | above
  · rw [order] at below
    cases below
  · exact above

theorem Descending.eq_of_perm {key : α → OrderKey} {a b : List α} (same : a.Perm b)
    (first : Descending key a) (second : Descending key b) : a = b := by
  refine same.eq_of_pairwise ?_ first second
  intro x y _ _ below above
  rw [OrderKey.before_asymm below] at above
  cases above

theorem Descending.keys_nodup {key : α → OrderKey} {rows : List α}
    (descends : Descending key rows) : (rows.map key).Nodup := by
  refine List.pairwise_map.2 (List.Pairwise.imp ?_ descends)
  intro a b below same
  rw [same, OrderKey.before_irrefl] at below
  cases below

/-- What lies below a row of a listing is the listing after that row. -/
private theorem rowsBelow_key {key : α → OrderKey} {rows : List α} (distinct : (rows.map key).Nodup)
    {position : OrderKey} {front back : List α} {row : α}
    (listed : rowsBelow key rows position = front ++ row :: back) :
    rowsBelow key rows (key row) = back := by
  have descending := descending_rowsBelow distinct position
  rw [listed] at descending
  obtain ⟨_, tail, apart⟩ := List.pairwise_append.1 descending
  obtain ⟨below, backDescending⟩ := List.pairwise_cons.1 tail
  have admitted : (key row).before position = true :=
    (mem_rowsBelow.1 (listed ▸ List.mem_append_right front List.mem_cons_self)).2
  refine Descending.eq_of_perm ?_ (descending_rowsBelow distinct _) backDescending
  have kept : ((rowsBelow key rows position).filter fun other => (key other).before (key row)) =
      back := by
    rw [listed, List.filter_append, List.filter_cons_of_neg (by simp [OrderKey.before_irrefl])]
    have none : (front.filter fun other => (key other).before (key row)) = [] := by
      rw [List.filter_eq_nil_iff]
      intro other member
      have above := apart other member row List.mem_cons_self
      simp [OrderKey.before_asymm above]
    have all : (back.filter fun other => (key other).before (key row)) = back := by
      rw [List.filter_eq_self]
      exact below
    rw [none, all, List.nil_append]
  rw [← kept]
  refine (rowsBelow_perm key rows (key row)).trans ?_
  refine List.Perm.trans ?_ ((rowsBelow_perm key rows position).symm.filter _)
  rw [List.filter_filter]
  refine List.Perm.of_eq (List.filter_congr ?_)
  intro other _
  cases lower : (key other).before (key row) with
  | false => rfl
  | true => rw [OrderKey.before_trans lower admitted]; rfl

/-- What lies below the last row of a page is the listing after the page. -/
theorem rowsBelow_last {key : α → OrderKey} {rows : List α} (distinct : (rows.map key).Nodup)
    {position : OrderKey} {size : Nat} {front : List α} {last : α}
    (page : (rowsBelow key rows position).take size = front ++ [last]) :
    rowsBelow key rows (key last) = (rowsBelow key rows position).drop size := by
  have whole : rowsBelow key rows position =
      front ++ last :: (rowsBelow key rows position).drop size := by
    rw [← List.singleton_append, ← List.append_assoc, ← page, List.take_append_drop]
  exact rowsBelow_key distinct whole

end DocAccess
