import LambdaCpp.Outcome.Storage

/-! # Histories of `outcome` Objects

    Any number of objects, and any sequence of constructions, assignments,
    extractions and destructions on them.

    Two things are kept by every operation: each flag names the union member
    that is alive, and the members that are alive are those that the ledger
    still has to see destroyed.  What the objects hold changes as if they
    were variables of the type `outcome`.
-/

namespace LambdaCpp

variable {TResult TFailure : Type}

/-! ### Operations -/

inductive Operation (TResult TFailure : Type) where
  | from_result (this : Location) (s : TResult)
  | from_failure (this : Location) (f : TFailure)
  | copy (this other : Location)
  | move (this other : Location) (left : Residue TResult TFailure)
  | assign (this other : Location) (left : Residue TResult TFailure)
  | take_result (this : Location) (left : Residue TResult TFailure)
  | take_failure (this : Location) (left : Residue TResult TFailure)
  | destruct (this : Location)

/-- What the objects hold. -/
abbrev Contents (TResult TFailure : Type) : Type := Location → Option (outcome TResult TFailure)

namespace Contents
variable (c : Contents TResult TFailure)

/-- The operations on variables: a copy leaves its source alone, a move
    leaves a residue in it. -/
def apply : Operation TResult TFailure → Contents TResult TFailure
  | .from_result this s => Function.update c this (some (.result s))
  | .from_failure this f => Function.update c this (some (.failure f))
  | .copy this other => Function.update c this (c other)
  | .move this other left | .assign this other left =>
    Function.update (Function.update c other ((c other).map left.apply)) this (c other)
  | .take_result this left | .take_failure this left =>
    Function.update c this ((c this).map left.apply)
  | .destruct this => Function.update c this none

/-- What the caller of the operation receives. -/
def received : Operation TResult TFailure → Option (outcome TResult TFailure)
  | .take_result this _ | .take_failure this _ => c this
  | _ => none

end Contents

namespace World
variable (t : Target) (w : World TResult TFailure)

/-- The operation as the class performs it, with what the caller receives. -/
def exec : Operation TResult TFailure →
    Checked (World TResult TFailure × Option (outcome TResult TFailure))
  | .from_result this s => do
    let w ← w.construct_from_result this s
    return (w, none)
  | .from_failure this f => do
    let w ← w.construct_from_failure this f
    return (w, none)
  | .copy this other => do
    let w ← w.copy_construct this other
    return (w, none)
  | .move this other left => do
    let w ← w.move_construct this other left
    return (w, none)
  | .assign this other left => do
    let w ← w.move_assign t this other left
    return (w, none)
  | .take_result this left => do
    let (s, w) ← w.take_result t this left
    return (w, some (.result s))
  | .take_failure this left => do
    let (f, w) ← w.take_failure t this left
    return (w, some (.failure f))
  | .destruct this => do
    let w ← w.destruct this
    return (w, none)

/-- Objects are constructed where there is none, and used while they exist;
    an assignment is between two of them. -/
def Disciplined : Operation TResult TFailure → Prop
  | .from_result this _ | .from_failure this _ => w.objects this = none
  | .copy this other | .move this other _ => w.objects this = none ∧ (w.objects other).isSome
  | .assign this other _ => this ≠ other ∧ (w.objects this).isSome ∧ (w.objects other).isSome
  | .take_result this _ | .take_failure this _ | .destruct this => (w.objects this).isSome

/-- Only the member that the flag names is extracted. -/
def Named : Operation TResult TFailure → Prop
  | .take_result this _ => w.is_success this = .ok true
  | .take_failure this _ => w.is_success this = .ok false
  | _ => True

def contents : Contents TResult TFailure := fun this =>
  (w.objects this).bind fun o => o.member.map Member.value

/-- The member that lives in each object. -/
def owns (this : Location) : Option Nat :=
  (w.objects this).bind fun o => o.member.map Member.id

/-- **The invariant.** -/
structure Consistent : Prop where
  tagged : ∀ this o, w.objects this = some o → ∃ id v, w.Holds this id v
  balanced : w.ledger.Balanced w.owns

/-! ### Single steps -/

variable {t w} {this other : Location} {id : Nat} {v : outcome TResult TFailure}

theorem Holds.contents (h : w.Holds this id v) : w.contents this = some v := by
  unfold World.contents
  rw [h]
  rfl

theorem Holds.owns (h : w.Holds this id v) : w.owns this = some id := by
  unfold World.owns
  rw [h]
  rfl

theorem owns_of_free (h : w.objects this = none) : w.owns this = none := by
  unfold owns
  rw [h]
  rfl

theorem Consistent.holds (h : w.Consistent) (hlive : (w.objects this).isSome) :
    ∃ id v, w.Holds this id v := by
  obtain ⟨o, ho⟩ := Option.isSome_iff_exists.mp hlive
  exact h.tagged this o ho

/-- Reading a table after one of its entries was changed. -/
theorem bind_update {α β : Type} (objects : Location → Option α) (o : Option α)
    (f : α → Option β) :
    (fun a => (Function.update objects this o a).bind f) =
      Function.update (fun a => (objects a).bind f) this (o.bind f) := by
  funext a
  by_cases ha : a = this
  · subst ha; simp
  · simp [Function.update_of_ne ha]

theorem contents_put : (w.put this v).contents = Function.update w.contents this (some v) :=
  bind_update ..

theorem contents_leave : (w.leave this id v).contents = Function.update w.contents this (some v) :=
  bind_update ..

theorem contents_drop : (w.drop this id).contents = Function.update w.contents this none :=
  bind_update ..

theorem Consistent.empty : (World.empty : World TResult TFailure).Consistent where
  tagged := by
    intro this o h
    cases h
  balanced := Ledger.Balanced.empty

/-- An object changes and the others stay as they were. -/
theorem tagged_update {o : Option (Storage TResult TFailure)} {l : Ledger}
    (h : w.Consistent) (ho : ∀ s, o = some s → ∃ id v, s = ⟨some ⟨id, v⟩, v.is_success⟩) :
    ∀ a s, (⟨Function.update w.objects this o, l⟩ : World TResult TFailure).objects a = some s →
      ∃ id v, (⟨Function.update w.objects this o, l⟩ : World TResult TFailure).Holds a id v := by
  intro a s hs
  by_cases ha : a = this
  · subst ha
    have heq : o = some s := by simpa using hs
    obtain ⟨id, v, hv⟩ := ho s heq
    refine ⟨id, v, ?_⟩
    show Function.update w.objects a o a = _
    rw [Function.update_self, heq, hv]
  · have hold : w.objects a = some s := by simpa [Function.update_of_ne ha] using hs
    obtain ⟨id, v, hv⟩ := h.tagged a s hold
    refine ⟨id, v, ?_⟩
    show Function.update w.objects this o a = _
    rw [Function.update_of_ne ha]
    exact hv

theorem Consistent.put (h : w.Consistent) (hfree : w.owns this = none) :
    (w.put this v).Consistent where
  tagged := by
    apply tagged_update h
    intro s hs
    exact ⟨_, v, (Option.some.inj hs).symm⟩
  balanced := by
    have howns : (w.put this v).owns = Function.update w.owns this (some w.ledger.constructed) :=
      bind_update ..
    rw [howns]
    exact h.balanced.construct hfree

theorem Consistent.leave {v' : outcome TResult TFailure} (h : w.Consistent)
    (hv : w.Holds this id v) : (w.leave this id v').Consistent where
  tagged := by
    apply tagged_update h
    intro s hs
    exact ⟨id, v', (Option.some.inj hs).symm⟩
  balanced := by
    have howns : (w.leave this id v').owns = w.owns := by
      calc (w.leave this id v').owns = Function.update w.owns this (some id) := bind_update ..
        _ = w.owns := by rw [← hv.owns, Function.update_eq_self]
    rw [howns]
    exact h.balanced

theorem Consistent.drop (h : w.Consistent) (hv : w.Holds this id v) :
    (w.drop this id).Consistent where
  tagged := by
    apply tagged_update h
    intro s hs
    cases hs
  balanced := by
    have howns : (w.drop this id).owns = Function.update w.owns this none := bind_update ..
    rw [howns]
    exact h.balanced.destroy hv.owns

/-! ### Every operation -/

variable {left : Residue TResult TFailure}

/-- The operation succeeds, keeps the invariant and acts on the contents as
    it should. -/
def Performs (t : Target) (w : World TResult TFailure) (op : Operation TResult TFailure) : Prop :=
  ∃ w', w.exec t op = .ok (w', w.contents.received op) ∧ w'.Consistent ∧
    w'.contents = w.contents.apply op

theorem Consistent.performs_from_result (h : w.Consistent) {s : TResult}
    (hfree : w.objects this = none) : Performs t w (.from_result this s) := by
  refine ⟨w.put this (.result s), ?_, h.put (owns_of_free hfree), contents_put⟩
  simp [exec, construct_from_result_eq, Contents.received]

theorem Consistent.performs_from_failure (h : w.Consistent) {f : TFailure}
    (hfree : w.objects this = none) : Performs t w (.from_failure this f) := by
  refine ⟨w.put this (.failure f), ?_, h.put (owns_of_free hfree), contents_put⟩
  simp [exec, construct_from_failure_eq, Contents.received]

/-- Two different locations: one has an object, the other has none. -/
theorem Holds.ne_of_free (hv : w.Holds other id v) (hfree : w.objects this = none) :
    other ≠ this := by
  rintro rfl
  rw [hv] at hfree
  cases hfree

theorem Consistent.performs_copy (h : w.Consistent) (hfree : w.objects this = none)
    (hv : w.Holds other id v) : Performs t w (.copy this other) := by
  refine ⟨w.put this v, ?_, h.put (owns_of_free hfree), ?_⟩
  · simp [exec, copy_construct_eq hv (hv.ne_of_free hfree), Contents.received]
  · rw [contents_put, ← hv.contents]
    rfl

theorem Consistent.performs_move (h : w.Consistent) (hfree : w.objects this = none)
    (hv : w.Holds other id v) : Performs t w (.move this other left) := by
  have hne := hv.ne_of_free hfree
  have hfree' : (w.leave other id (left.apply v)).objects this = none := by
    show Function.update w.objects other _ this = none
    rw [Function.update_of_ne hne.symm]
    exact hfree
  refine ⟨(w.leave other id (left.apply v)).put this v, ?_, h.leave hv |>.put
    (owns_of_free hfree'), ?_⟩
  · simp [exec, move_construct_eq hv hne, Contents.received]
  · rw [contents_put, contents_leave]
    simp [Contents.apply, hv.contents]

theorem Consistent.performs_assign {id' : Nat} {v' : outcome TResult TFailure} (h : w.Consistent)
    (hne : this ≠ other) (hv : w.Holds this id v) (hv' : w.Holds other id' v') :
    Performs t w (.assign this other left) := by
  -- the source outlives the member destroyed in the target
  have hother : (w.drop this id).Holds other id' v' := by
    show Function.update w.objects this none other = _
    rw [Function.update_of_ne hne.symm]
    exact hv'
  have hfree : ((w.drop this id).leave other id' (left.apply v')).objects this = none := by
    show Function.update (Function.update w.objects this none) other _ this = none
    rw [Function.update_of_ne hne, Function.update_self]
  refine ⟨((w.drop this id).leave other id' (left.apply v')).put this v', ?_,
    ((h.drop hv).leave hother).put (owns_of_free hfree), ?_⟩
  · simp [exec, move_assign_eq hv hv' hne, Contents.received]
  · rw [contents_put, contents_leave, contents_drop]
    simp [Contents.apply, hv'.contents, Function.update_comm hne.symm]

theorem Holds.is_success_iff (hv : w.Holds this id v) {b : Bool} :
    w.is_success this = .ok b ↔ v.is_success = b := by
  rw [is_success_eq hv]
  simp

theorem Consistent.performs_take_result (h : w.Consistent) (hv : w.Holds this id v)
    (hnamed : w.is_success this = .ok true) : Performs t w (.take_result this left) := by
  have hcase := hv.is_success_iff.mp hnamed
  refine ⟨w.leave this id (left.apply v), ?_, h.leave hv, ?_⟩
  · cases v with
    | result s => simp [exec, take_result_eq hv, Contents.received, hv.contents]
    | failure f => cases hcase
  · rw [contents_leave]
    simp [Contents.apply, hv.contents]

theorem Consistent.performs_take_failure (h : w.Consistent) (hv : w.Holds this id v)
    (hnamed : w.is_success this = .ok false) : Performs t w (.take_failure this left) := by
  have hcase := hv.is_success_iff.mp hnamed
  refine ⟨w.leave this id (left.apply v), ?_, h.leave hv, ?_⟩
  · cases v with
    | result s => cases hcase
    | failure f => simp [exec, take_failure_eq hv, Contents.received, hv.contents]
  · rw [contents_leave]
    simp [Contents.apply, hv.contents]

theorem Consistent.performs_destruct (h : w.Consistent) (hv : w.Holds this id v) :
    Performs t w (.destruct this) := by
  refine ⟨w.drop this id, ?_, h.drop hv, contents_drop⟩
  simp [exec, destruct_eq hv, Contents.received]

/-- **One operation** on consistent objects. -/
theorem Consistent.performs (h : w.Consistent) {op : Operation TResult TFailure}
    (hdisciplined : w.Disciplined op) (hnamed : w.Named op) : Performs t w op := by
  cases op with
  | from_result this s => exact h.performs_from_result hdisciplined
  | from_failure this f => exact h.performs_from_failure hdisciplined
  | copy this other =>
    obtain ⟨id, v, hv⟩ := h.holds hdisciplined.2
    exact h.performs_copy hdisciplined.1 hv
  | move this other left =>
    obtain ⟨id, v, hv⟩ := h.holds hdisciplined.2
    exact h.performs_move hdisciplined.1 hv
  | assign this other left =>
    obtain ⟨hne, hthis, hother⟩ := hdisciplined
    obtain ⟨id, v, hv⟩ := h.holds hthis
    obtain ⟨id', v', hv'⟩ := h.holds hother
    exact h.performs_assign hne hv hv'
  | take_result this left =>
    obtain ⟨id, v, hv⟩ := h.holds hdisciplined
    exact h.performs_take_result hv hnamed
  | take_failure this left =>
    obtain ⟨id, v, hv⟩ := h.holds hdisciplined
    exact h.performs_take_failure hv hnamed
  | destruct this =>
    obtain ⟨id, v, hv⟩ := h.holds hdisciplined
    exact h.performs_destruct hv

/-- With assertions compiled in, the wrong extraction stops before it
    touches a member. -/
theorem Consistent.guarded (h : w.Consistent) (hassert : t.ndebug = false)
    {op : Operation TResult TFailure} (hdisciplined : w.Disciplined op) (hnamed : ¬ w.Named op) :
    w.exec t op = .error .assertion := by
  cases op with
  | take_result this left =>
    obtain ⟨id, v, hv⟩ := h.holds hdisciplined
    have hcase : v.is_success = false := by
      simpa [Named, hv.is_success_iff] using hnamed
    simp [exec, take_result_eq hv, outcome.get_result, Target.assert, hassert, hcase]
  | take_failure this left =>
    obtain ⟨id, v, hv⟩ := h.holds hdisciplined
    have hcase : v.is_success = true := by
      simpa [Named, hv.is_success_iff] using hnamed
    simp [exec, take_failure_eq hv, outcome.get_failure, Target.assert, hassert, hcase]
  | _ => exact absurd trivial hnamed

end World

/-! ### Histories -/

/-- Every sequence of operations that respect `permitted`. -/
def outcome_system (t : Target)
    (permitted : World TResult TFailure → Operation TResult TFailure → Prop) :
    System (World TResult TFailure) (Operation TResult TFailure) where
  init := fun w => w = World.empty
  step := fun w op w' => permitted w op ∧ ∃ out, w.exec t op = .ok (w', out)

/-- Operations on existing objects that extract the member the flag names. -/
def Proper (w : World TResult TFailure) (op : Operation TResult TFailure) : Prop :=
  w.Disciplined op ∧ w.Named op

theorem history_consistent {t : Target} {ops : List (Operation TResult TFailure)}
    {w : World TResult TFailure} (h : (outcome_system t Proper).Run ops w) : w.Consistent := by
  apply System.Run.invariant (I := fun _ w => w.Consistent) _ _ h
  · intro w hw
    rw [hw]
    exact World.Consistent.empty
  · intro ops w op w' hw hstep
    obtain ⟨⟨hdisciplined, hnamed⟩, out, hexec⟩ := hstep
    obtain ⟨w'', hexec', hw'', -⟩ := hw.performs (t := t) hdisciplined hnamed
    rw [hexec, Except.ok.injEq, Prod.mk.injEq] at hexec'
    rw [hexec'.1]
    exact hw''

/-- What must hold of the value of every object an operation writes. -/
def Transferred (before after : Contents TResult TFailure) : Operation TResult TFailure → Prop
  | .from_result this s => after this = some (.result s)
  | .from_failure this f => after this = some (.failure f)
  | .copy this other => after this = before other ∧ after other = before other
  | .move this other _ | .assign this other _ => after this = before other
  | _ => True

theorem transferred_apply {w : World TResult TFailure} {op : Operation TResult TFailure}
    (hdisciplined : w.Disciplined op) : Transferred w.contents (w.contents.apply op) op := by
  cases op with
  | copy this other =>
    refine ⟨Function.update_self .., ?_⟩
    have hne : other ≠ this := by
      rintro rfl
      obtain ⟨hfree, hlive⟩ := hdisciplined
      rw [hfree] at hlive
      cases hlive
    exact Function.update_of_ne hne ..
  | from_result | from_failure | move | assign => exact Function.update_self ..
  | take_result | take_failure | destruct => trivial

/-- What holds of the objects at every point of a history. -/
structure Sound (t : Target) (w : World TResult TFailure) : Prop where
  /-- `m_success` names the member that was constructed and not yet
      destroyed. -/
  tagged : ∀ this o, w.objects this = some o → ∃ m, o.member = some m ∧
    m.value.is_success = o.m_success ∧ m.id < w.ledger.constructed ∧ m.id ∉ w.ledger.destroyed
  /-- Every operation succeeds: none touches an inactive member. -/
  performs : ∀ op, Proper w op → ∃ w', w.exec t op = .ok (w', w.contents.received op) ∧
    w'.contents = w.contents.apply op ∧ Transferred w.contents w'.contents op
  /-- The other extraction is stopped where assertions are compiled in. -/
  guarded : t.ndebug = false → ∀ op, w.Disciplined op → ¬ w.Named op →
    w.exec t op = .error .assertion
  destroyed_once : w.ledger.destroyed.Nodup
  settled : (∀ this, w.objects this = none) →
    ∀ id, id < w.ledger.constructed → w.ledger.destroyed.count id = 1

/-- **The tagged union is always consistent**: for any two types, after any
    sequence of operations on any number of objects. -/
theorem outcome_always_consistent (t : Target) {ops : List (Operation TResult TFailure)}
    {w : World TResult TFailure} (h : (outcome_system t Proper).Run ops w) : Sound t w where
  tagged := by
    intro this o ho
    have hw := history_consistent h
    obtain ⟨id, v, hv⟩ := hw.tagged this o ho
    have heq : o = ⟨some ⟨id, v⟩, v.is_success⟩ := Option.some.inj (ho.symm.trans hv)
    refine ⟨⟨id, v⟩, by rw [heq], by rw [heq], ?_, ?_⟩
    · exact hw.balanced.owned_lt this id hv.owns
    · exact hw.balanced.owned_alive this id hv.owns
  performs := by
    intro op hop
    obtain ⟨hdisciplined, hnamed⟩ := hop
    obtain ⟨w', hexec, -, hcontents⟩ := (history_consistent h).performs (t := t) hdisciplined hnamed
    refine ⟨w', hexec, hcontents, ?_⟩
    rw [hcontents]
    exact transferred_apply hdisciplined
  guarded := fun hassert op hdisciplined hnamed =>
    (history_consistent h).guarded hassert hdisciplined hnamed
  destroyed_once := (history_consistent h).balanced.destroyed_once
  settled := by
    intro hnone
    apply (history_consistent h).balanced.settled
    intro this
    exact World.owns_of_free (hnone this)

/-- A success is assigned over a failure, taken from, and both objects go. -/
def reuse_history : List (Operation Nat Bool) :=
  [.from_failure 0 false, .from_result 1 7, .assign 0 1 ⟨fun _ => 0, id⟩,
    .take_result 0 ⟨fun _ => 0, id⟩, .destruct 1, .destruct 0]

/-- A history goes on with one more operation. -/
theorem history_step {t : Target}
    {permitted : World TResult TFailure → Operation TResult TFailure → Prop}
    {ops : List (Operation TResult TFailure)} {w w' : World TResult TFailure}
    (h : (outcome_system t permitted).Run ops w) (op : Operation TResult TFailure)
    (hop : permitted w op) {out : Option (outcome TResult TFailure)}
    (hexec : w.exec t op = .ok (w', out)) : (outcome_system t permitted).Run (ops ++ [op]) w' :=
  System.Run.step h ⟨hop, out, hexec⟩

theorem reuse_history_run :
    ∃ w, (outcome_system (Target.linux true true []) Proper).Run reuse_history w ∧
      w.ledger = ⟨3, [0, 1, 2]⟩ := by
  have h₁ : (outcome_system (Target.linux true true []) Proper).Run []
      (World.empty : World Nat Bool) := System.Run.init rfl
  have h₂ := history_step h₁ (.from_failure 0 false) ⟨rfl, trivial⟩ rfl
  have h₃ := history_step h₂ (.from_result 1 7) ⟨rfl, trivial⟩ rfl
  have h₄ := history_step h₃ (.assign 0 1 ⟨fun _ => 0, id⟩) ⟨⟨by decide, rfl, rfl⟩, trivial⟩ rfl
  have h₅ := history_step h₄ (.take_result 0 ⟨fun _ => 0, id⟩) ⟨rfl, rfl⟩ rfl
  have h₆ := history_step h₅ (.destruct 1) ⟨rfl, trivial⟩ rfl
  have h₇ := history_step h₆ (.destruct 0) ⟨rfl, trivial⟩ rfl
  exact ⟨_, h₇, rfl⟩

theorem outcome_always_consistent_reuse :
    ∃ w, (outcome_system (Target.linux true true []) Proper).Run reuse_history w ∧
      w.ledger = ⟨3, [0, 1, 2]⟩ ∧ Sound (Target.linux true true []) w := by
  obtain ⟨w, hrun, hledger⟩ := reuse_history_run
  exact ⟨w, hrun, hledger, outcome_always_consistent _ hrun⟩

/-- Without assertions, extracting the result of a failure touches the
    member that is not alive. -/
theorem take_result_of_failure :
    ∃ w, (outcome_system (Target.linux true true []) World.Disciplined).Run
        [.from_failure 0 false] w ∧
      w.Disciplined (.take_result 0 ⟨id, id⟩) ∧
      World.exec (Target.linux true true []) (w : World Nat Bool) (.take_result 0 ⟨id, id⟩) =
        .error .inactive_member := by
  have h₁ : (outcome_system (Target.linux true true []) World.Disciplined).Run []
      (World.empty : World Nat Bool) := System.Run.init rfl
  have h₂ := history_step h₁ (.from_failure 0 false) rfl rfl
  exact ⟨_, h₂, rfl, rfl⟩

end LambdaCpp
