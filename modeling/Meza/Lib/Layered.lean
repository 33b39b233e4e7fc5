import Mathlib.Data.List.Basic

/-! # Layered decisions

    A layer either decides a yes/no question or stays silent. A stack of
    layers, listed from the most specific to the least, is decided by its
    first layer that is not silent, and by a default when all are.

    Applying the layers one after the other from the least specific one gives
    the same answer; that is how an implementation usually computes it. -/

namespace Layered
open List Bool

/-- One layer overrides the answer so far unless it is silent. -/
def override (b : Bool) (d : Option Bool) : Bool := d.getD b

/-- The answer of a stack of layers, most specific first. -/
def decision (layers : List (Option Bool)) (dflt : Bool) : Bool :=
  (layers.findSome? id).getD dflt

/-- Layers applied in turn, least specific first, decide like the stack. -/
theorem foldr_override (layers : List (Option Bool)) (dflt : Bool) :
    layers.foldr (fun d b => override b d) dflt = decision layers dflt := by
  induction layers with
  | nil => rfl
  | cons d ds ih =>
    cases d with
    | none => simpa [override, decision] using ih
    | some b => simp [override, decision]

/-- Where no layer grants and one refuses, the answer is no. -/
theorem decision_of_refused {layers : List (Option Bool)} (hgrant : some true ∉ layers)
    (hrefuse : some false ∈ layers) (dflt : Bool) : decision layers dflt = false := by
  induction layers with
  | nil => cases hrefuse
  | cons d ds ih =>
    cases d with
    | none =>
      have htail := ih (fun h => hgrant (mem_cons_of_mem _ h)) (by simpa using hrefuse)
      simpa [decision] using htail
    | some b =>
      cases b with
      | true => exact absurd mem_cons_self hgrant
      | false => rfl

/-- Allow beats deny inside one layer; a layer that has neither is silent. -/
def allowDeny (allow deny : Bool) : Option Bool :=
  if allow then some true else if deny then some false else none

theorem override_allowDeny (b allow deny : Bool) :
    override b (allowDeny allow deny) = ((b && !deny) || allow) := by
  cases allow <;> cases deny <;> cases b <;> rfl

theorem override_idem (b : Bool) (d : Option Bool) : override (override b d) d = override b d := by
  cases d <;> rfl

/-! ## Several voices in one layer

    When a layer has several members, either all their allows and denies are
    collected before the layer decides (`aggregate`), or they speak one after
    the other and the last one wins (`inTurn`). -/

section Voices
variable {α : Type*} (allows denies : α → Bool)

/-- The layer decides once, on everything its members allow and deny. -/
def aggregate (vs : List α) : Option Bool := allowDeny (vs.any allows) (vs.any denies)

/-- Members that never allow do not grant, and a deny among them refuses. -/
theorem aggregate_of_no_allow {vs : List α} (h : vs.any allows = false) :
    aggregate allows denies vs = if vs.any denies then some false else none := by
  unfold aggregate allowDeny
  rw [h]
  rfl

/-- The members override each other in list order. -/
def inTurn (vs : List α) (b : Bool) : Bool :=
  vs.foldl (fun b v => override b (allowDeny (allows v) (denies v))) b

/-- Some member allows, and the last member that speaks only denies. -/
def Shadowed (vs : List α) : Prop :=
  ∃ pre v post, vs = pre ++ v :: post ∧ pre.any allows = true ∧
    denies v = true ∧ allows v = false ∧ post.any allows = false

theorem inTurn_append (xs ys : List α) (b : Bool) :
    inTurn allows denies (xs ++ ys) b = inTurn allows denies ys (inTurn allows denies xs b) := by
  simp [inTurn]

/-- Members that never allow can only take away. -/
theorem inTurn_of_no_allow (vs : List α) (b : Bool) (h : vs.any allows = false) :
    inTurn allows denies vs b = (b && !vs.any denies) := by
  induction vs generalizing b with
  | nil => simp [inTurn]
  | cons v vs ih =>
    simp only [any_cons, Bool.or_eq_false_iff] at h
    have hstep : inTurn allows denies (v :: vs) b = inTurn allows denies vs (b && !denies v) := by
      simp [inTurn, override_allowDeny, h.1]
    rw [hstep, ih _ h.2]
    simp [Bool.and_assoc]

/-- A layer that speaks forgets what came before it. -/
theorem override_aggregate_of_some (vs : List α) (b b' : Bool)
    (h : (vs.any allows || vs.any denies) = true) :
    override b (aggregate allows denies vs) = override b' (aggregate allows denies vs) := by
  unfold aggregate
  cases ha : vs.any allows
  · rw [ha, Bool.false_or] at h
    simp [allowDeny, h, override]
  · simp [allowDeny, override]

theorem inTurn_of_some (vs : List α) (b b' : Bool) (h : (vs.any allows || vs.any denies) = true) :
    inTurn allows denies vs b = inTurn allows denies vs b' := by
  induction vs generalizing b b' with
  | nil => simp at h
  | cons v vs ih =>
    show inTurn allows denies vs _ = inTurn allows denies vs _
    by_cases hv : (allows v || denies v) = true
    · have heq : override b (allowDeny (allows v) (denies v))
          = override b' (allowDeny (allows v) (denies v)) := by
        cases ha : allows v
        · rw [ha, Bool.false_or] at hv
          simp [allowDeny, hv, override]
        · simp [allowDeny, override]
      exact congrArg (inTurn allows denies vs) heq
    · apply ih
      simp only [not_eq_true, or_eq_false_iff] at hv
      simpa [hv.1, hv.2] using h

/-- A layer that is silent leaves the answer alone, either way. -/
theorem inTurn_of_none (vs : List α) (b : Bool)
    (h : (vs.any allows || vs.any denies) = false) : inTurn allows denies vs b = b := by
  rw [or_eq_false_iff] at h
  rw [inTurn_of_no_allow allows denies vs b h.1, h.2]
  simp

theorem override_aggregate_of_none (vs : List α) (b : Bool)
    (h : (vs.any allows || vs.any denies) = false) :
    override b (aggregate allows denies vs) = b := by
  rw [or_eq_false_iff] at h
  simp [aggregate, allowDeny, h.1, h.2, override]

/-- Splitting at the last member that allows: what is said after it decides. -/
theorem exists_last_allow (vs : List α) (h : vs.any allows = true) :
    ∃ pre v post, vs = pre ++ v :: post ∧ allows v = true ∧ post.any allows = false := by
  induction vs with
  | nil => simp at h
  | cons v vs ih =>
    by_cases htail : vs.any allows = true
    · obtain ⟨pre, u, post, rfl, hu, hpost⟩ := ih htail
      exact ⟨v :: pre, u, post, rfl, hu, hpost⟩
    · rw [not_eq_true] at htail
      refine ⟨[], v, vs, rfl, ?_, htail⟩
      simpa [htail] using h

/-- The members speaking in turn grant no more than the layer as a whole. -/
theorem inTurn_le_aggregate (vs : List α) (b : Bool) (h : inTurn allows denies vs b = true) :
    override b (aggregate allows denies vs) = true := by
  cases ha : vs.any allows
  · rw [inTurn_of_no_allow allows denies vs b ha] at h
    rw [aggregate, override_allowDeny, ha, h]
    rfl
  · simp [aggregate, allowDeny, ha, override]

/-- In turn and as a whole differ exactly when an allow is shadowed. -/
theorem inTurn_eq_aggregate_iff (vs : List α) (b : Bool) :
    inTurn allows denies vs b = override b (aggregate allows denies vs) ↔
      ¬ Shadowed allows denies vs := by
  cases ha : vs.any allows
  · -- Nobody allows: both only take away, and nothing can be shadowed.
    rw [inTurn_of_no_allow allows denies vs b ha]
    simp only [aggregate, override_allowDeny, ha, Bool.or_false, true_iff]
    intro hex
    obtain ⟨pre, v, post, rfl, hpre, -, -, -⟩ := hex
    simp only [any_append, Bool.or_eq_false_iff] at ha
    rw [ha.1] at hpre
    cases hpre
  · have hwhole : override b (aggregate allows denies vs) = true := by
      simp [aggregate, allowDeny, ha, override]
    obtain ⟨pre, v, post, rfl, hv, hpost⟩ := exists_last_allow allows vs ha
    have hturn : inTurn allows denies (pre ++ v :: post) b = !post.any denies := by
      rw [inTurn_append]
      have hcons : inTurn allows denies (v :: post) (inTurn allows denies pre b)
          = inTurn allows denies post true := by
        simp [inTurn, allowDeny, hv, override]
      rw [hcons, inTurn_of_no_allow allows denies post true hpost]
      simp
    rw [hwhole, hturn]
    constructor
    · -- After the last allow nobody denies, so no split can end in a deny.
      rintro hnone ⟨pre', u, post', heq, -, hdeny, hnallow, hpost'⟩
      obtain ⟨as, rfl, hsuffix⟩ | ⟨cs, rfl, hsuffix⟩ := append_eq_append_iff.mp heq
      · -- `u` comes at or after `v`
        cases as with
        | nil =>
          simp only [nil_append, cons.injEq] at hsuffix
          rw [hsuffix.1, hnallow] at hv
          cases hv
        | cons a as =>
          simp only [cons_append, cons.injEq] at hsuffix
          rw [hsuffix.2] at hnone
          simp [hdeny] at hnone
      · cases cs with
        | nil =>
          simp only [nil_append, cons.injEq] at hsuffix
          rw [← hsuffix.1, hnallow] at hv
          cases hv
        | cons c cs =>
          simp only [cons_append, cons.injEq] at hsuffix
          rw [hsuffix.2] at hpost'
          simp [hv] at hpost'
    · intro hns
      by_contra hd
      simp only [Bool.not_eq_true, Bool.not_eq_false'] at hd
      obtain ⟨u, hu, hdu⟩ := any_eq_true.mp hd
      obtain ⟨p, q, rfl⟩ := append_of_mem hu
      simp only [any_append, any_cons, Bool.or_eq_false_iff] at hpost
      exact hns ⟨pre ++ v :: p, u, q, by simp, by simp [hv], hdu, hpost.2.1, hpost.2.2⟩

/-! ### Two layers made one

    When the members of the layer below move up into the layer above, they lose
    their place: they are heard together with those they used to give way to. -/

/-- Moving the members `moved` of the layer `below` up keeps the answer exactly if
    none of them allows where the layer above only refuses, and if they speak for
    the whole layer below where the layer above is silent. -/
theorem override_aggregate_append_iff (above below moved : List α) (b : Bool) :
    override b (aggregate allows denies (above ++ moved)) =
        override (override b (aggregate allows denies below)) (aggregate allows denies above) ↔
      (aggregate allows denies above = some false → moved.any allows = false) ∧
      (aggregate allows denies above = none →
        override b (aggregate allows denies moved) =
          override b (aggregate allows denies below)) := by
  cases ha : above.any allows with
  | true =>
    -- an allow above is heard either way
    have habove : aggregate allows denies above = some true := by
      simp [aggregate, allowDeny, ha]
    have hall : aggregate allows denies (above ++ moved) = some true := by
      simp [aggregate, allowDeny, ha]
    simp [habove, hall, override]
  | false =>
    have habove := aggregate_of_no_allow allows denies ha
    cases hd : above.any denies with
    | true =>
      rw [hd] at habove
      have hall : aggregate allows denies (above ++ moved) =
          if moved.any allows then some true else some false := by
        simp [aggregate, allowDeny, ha, hd]
      rw [habove, hall]
      cases moved.any allows
      · simp [override]
      · simp [override]
    | false =>
      rw [hd] at habove
      have hall : aggregate allows denies (above ++ moved) = aggregate allows denies moved := by
        simp [aggregate, ha, hd]
      rw [habove, hall]
      simp [override]

end Voices

/-- A layer that speaks decides, one that is silent leaves the decision to the rest. -/
theorem decision_cons (d : Option Bool) (ds : List (Option Bool)) (dflt : Bool) :
    decision (d :: ds) dflt = override (decision ds dflt) d := by
  cases d with
  | none | some => simp [decision, override]

theorem decision_nil (dflt : Bool) : decision [] dflt = dflt := rfl

/-- More allowed, less denied, on top of more. -/
theorem override_allowDeny_mono {b b' allow allow' deny deny' : Bool}
    (hb : b = true → b' = true) (hallow : allow = true → allow' = true)
    (hdeny : deny' = true → deny = true) (h : override b (allowDeny allow deny) = true) :
    override b' (allowDeny allow' deny') = true := by
  rw [override_allowDeny] at h ⊢
  grind

end Layered
