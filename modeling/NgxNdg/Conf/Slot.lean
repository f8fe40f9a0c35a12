import NgxNdg.Conf.Inheritance

/-!
# Slots of a configuration

The setters that nginx provides for the directives of a module. Each of them writes a field that
is still unset and refuses a field that is set as a duplicate, so that a directive stands at most
once in a block.

## Main definitions

- `ngxConfSlot`, with `ngxConfFlagSlot`, `ngxConfStrSlot` and `ngxConfMsecSlot`: the setters
- `setValue`: the value of a field that is set
-/

namespace NgxNdg

variable {α : Type*} [DecidableEq α]

/-- A setter of nginx: the new value of the field, or `none` for a duplicate. -/
def ngxConfSlot (unset value field : α) : Option α :=
  if field ≠ unset then none else some value

/-- `ngx_conf_set_flag_slot`. -/
def ngxConfFlagSlot (on : Bool) (enable : ℤ) : Option ℤ :=
  ngxConfSlot ngxConfUnset (ngxFlag on) enable

/-- `ngx_conf_set_str_slot`; a string is unset while it is `null`. -/
def ngxConfStrSlot (null value str : α) : Option α := ngxConfSlot null value str

/-- `ngx_conf_set_msec_slot`, which also refuses `NGX_ERROR`, which stands for a time that cannot
be parsed, as an invalid value. -/
def ngxConfMsecSlot (parsed msec : UInt64) : Option UInt64 :=
  if msec ≠ ngxConfUnsetUint then none
  else if parsed = ngxConfUnsetUint then none
  else some parsed

/-- The value of a field, if it is set. -/
def setValue (unset value : α) : Option α := if value = unset then none else some value

variable {unset value value' field field' : α}

theorem ngxConfSlot_eq_some :
    ngxConfSlot unset value field = some field' ↔ field = unset ∧ field' = value := by
  unfold ngxConfSlot
  rw [Option.ite_none_left_eq_some, not_not, Option.some.injEq, eq_comm (b := field')]

theorem ngxConfFlagSlot_eq_some {on : Bool} {enable enable' : ℤ} :
    ngxConfFlagSlot on enable = some enable' ↔ enable = ngxConfUnset ∧ enable' = ngxFlag on :=
  ngxConfSlot_eq_some

theorem ngxConfMsecSlot_eq_some {parsed msec msec' : UInt64} :
    ngxConfMsecSlot parsed msec = some msec' ↔
      msec = ngxConfUnsetUint ∧ parsed ≠ ngxConfUnsetUint ∧ msec' = parsed := by
  unfold ngxConfMsecSlot
  rw [Option.ite_none_left_eq_some, not_not, Option.ite_none_left_eq_some, Option.some.injEq,
    eq_comm (b := msec')]

theorem setValue_unset (unset : α) : setValue unset unset = none := if_pos rfl

theorem setValue_of_ne (h : value ≠ unset) : setValue unset value = some value := if_neg h

theorem setValue_eq_none_iff : setValue unset value = none ↔ value = unset := by
  unfold setValue
  split
  · exact iff_of_true rfl ‹_›
  · exact iff_of_false (Option.some_ne_none _) ‹_›

/-- A field is its value, or unset. -/
theorem eq_getD_setValue (unset value : α) : value = (setValue unset value).getD unset := by
  unfold setValue
  split
  · assumption
  · rfl

theorem setValue_fill (h : value = unset) (h' : value' ≠ unset) :
    (setValue unset value').toList = (setValue unset value).toList ++ [value'] := by
  rw [h, setValue_unset, setValue_of_ne h']
  rfl

/-- Below an unset field, a field has its own value or the default. -/
theorem ngxConfMerge_unset (unset conf default : α) :
    ngxConfMerge unset conf unset default = (setValue unset conf).getD default := by
  unfold ngxConfMerge setValue
  split
  · exact if_pos rfl
  · rfl

end NgxNdg
