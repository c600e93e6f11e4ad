import Mathlib.Data.List.Basic

/-! Lists whose items are decoded one by one, and may fail to be.

One loop stops at the first item that fails, another skips it. Both read the
same values off a list on which nothing fails; the first comes to a result on
these lists only, the second on all.
-/

set_option autoImplicit false

namespace Foundation.Decoding

variable {Item Value Image State Error : Type} (decode : Item → Except Error Value)

def decoded (items : List Item) : List Value := items.filterMap fun item => (decode item).toOption

@[simp] theorem decoded_nil : decoded decode [] = [] := rfl

section Head
variable {decode} {item : Item}

theorem decoded_cons_ok {value : Value} (head : decode item = .ok value) (items : List Item) :
    decoded decode (item :: items) = value :: decoded decode items := by
  unfold decoded
  rw [List.filterMap_cons, head]
  rfl

theorem decoded_cons_error {error : Error} (head : decode item = .error error) (items : List Item) :
    decoded decode (item :: items) = decoded decode items := by
  unfold decoded
  rw [List.filterMap_cons, head]
  rfl

end Head

theorem mem_decoded {items : List Item} {value : Value} :
    value ∈ decoded decode items ↔ ∃ item ∈ items, decode item = .ok value := by
  unfold decoded
  rw [List.mem_filterMap]
  apply exists_congr
  intro item
  cases decode item with
  | ok other => simp [Except.toOption]
  | error error => simp [Except.toOption]

theorem nodup_decoded {Key : Type} {keyOf : Item → Key} {key : Value → Key}
    (keeps : ∀ item value, decode item = .ok value → key value = keyOf item) {items : List Item}
    (distinct : (items.map keyOf).Nodup) : ((decoded decode items).map key).Nodup := by
  suffices kept : ((decoded decode items).map key).Sublist (items.map keyOf) from distinct.sublist kept
  clear distinct
  induction items with
  | nil => exact List.Sublist.slnil
  | cons item items ih =>
    cases head : decode item with
    | error error =>
      rw [decoded_cons_error head]
      exact ih.cons _
    | ok value =>
      rw [decoded_cons_ok head, List.map_cons, keeps item value head]
      exact ih.cons_cons _

/-- The loop that stops comes to a result exactly if no item fails, and then skips nothing. -/
theorem mapM_eq_ok_iff {items : List Item} {values : List Value} :
    items.mapM decode = .ok values ↔
      (∀ item ∈ items, ∃ value, decode item = .ok value) ∧ values = decoded decode items := by
  induction items generalizing values with
  | nil => simp [pure, Except.pure, eq_comm]
  | cons item items ih =>
    rw [List.mapM_cons, List.forall_mem_cons]
    cases head : decode item with
    | error error => simp [bind, Except.bind]
    | ok value =>
      rw [decoded_cons_ok head]
      cases rest : items.mapM decode with
      | error error =>
        have failing : ¬ ∀ item ∈ items, ∃ value, decode item = .ok value := by
          intro all
          have impossible := ih.mpr ⟨all, rfl⟩
          rw [rest] at impossible
          cases impossible
        simp [bind, Except.bind, failing]
      | ok others =>
        obtain ⟨all, rfl⟩ := ih.mp rest
        rw [and_iff_right ⟨⟨value, rfl⟩, all⟩]
        exact ⟨fun same => (Except.ok.inj same).symm, fun same => congrArg Except.ok same.symm⟩

theorem foldlM_decode (add : State → Value → State) (items : List Item) (state : State) :
    items.foldlM (fun state item => do return add state (← decode item)) state =
      (items.mapM decode).map fun values => values.foldl add state := by
  induction items generalizing state with
  | nil => rfl
  | cons item items ih =>
    rw [List.foldlM_cons, List.mapM_cons]
    cases decode item with
    | error error => rfl
    | ok value =>
      change items.foldlM _ (add state value) = _
      rw [ih]
      cases items.mapM decode with
      | error error => rfl
      | ok values => rfl

theorem mapM_decode (read : Value → Image) (items : List Item) :
    items.mapM (fun item => do return read (← decode item)) = (items.mapM decode).map (List.map read) := by
  induction items with
  | nil => rfl
  | cons item items ih =>
    rw [List.mapM_cons, List.mapM_cons, ih]
    cases decode item with
    | error error => rfl
    | ok value =>
      cases items.mapM decode with
      | error error => rfl
      | ok values => rfl

theorem foldl_skip {visit : State → Item → State} {add : State → Value → State}
    (takes : ∀ state item value, decode item = .ok value → visit state item = add state value)
    (skips : ∀ state item error, decode item = .error error → visit state item = state)
    (items : List Item) (state : State) :
    items.foldl visit state = (decoded decode items).foldl add state := by
  induction items generalizing state with
  | nil => rfl
  | cons item items ih =>
    rw [List.foldl_cons, ih]
    cases head : decode item with
    | error error => rw [skips state item error head, decoded_cons_error head]
    | ok value => rw [takes state item value head, decoded_cons_ok head, List.foldl_cons]

end Foundation.Decoding
