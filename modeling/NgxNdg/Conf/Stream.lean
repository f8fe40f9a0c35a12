import NgxNdg.Conf.Slot
import NgxNdg.Lib.Directive

/-!
# Stream server blocks

The server blocks of the four stream modules. nginx creates the configurations of a block, handles
its directives in the order of the file, and merges the configurations with those of the `stream`
block, in which none of the directives of the modules may stand. A block may have any other
directives of nginx, which leave the configurations of the modules alone but may set the content
handler; whether nginx makes a server of the block is not asked here.

## Main definitions

- `StreamDirective`, `streamDirective`: a directive, and what handles it
- `streamConf`: the configurations of a server block
- `StreamAccepted`, `StreamSrvConfs.parse`: the blocks without a refused directive, and what comes
  of them
-/

namespace NgxNdg

open Directive Transition

/-- The content handlers of a server: those of the modules, and the others of nginx. -/
inductive StreamContentHandler where
  | ndgEcho
  | ndgDiscard
  | ndgTime
  | other (n : ℕ)
  deriving DecidableEq

/-- `ngx_stream_ndg_hello_srv_conf_t`. -/
structure NgxStreamNdgHelloSrvConf where
  enable : ℤ
  deriving DecidableEq

/-- `ngx_stream_ndg_echo_srv_conf_t`. -/
structure NgxStreamNdgEchoSrvConf where
  enable : ℤ
  deriving DecidableEq

/-- `ngx_stream_ndg_discard_srv_conf_t`. -/
structure NgxStreamNdgDiscardSrvConf where
  timeout : UInt64
  deriving DecidableEq

def ngxStreamNdgHelloCreateSrvConf : NgxStreamNdgHelloSrvConf := ⟨ngxConfUnset⟩

def ngxStreamNdgHelloMergeSrvConf (prev conf : NgxStreamNdgHelloSrvConf) :
    NgxStreamNdgHelloSrvConf :=
  ⟨ngxConfMerge ngxConfUnset conf.enable prev.enable 0⟩

def ngxStreamNdgEchoCreateSrvConf : NgxStreamNdgEchoSrvConf := ⟨ngxConfUnset⟩

def ngxStreamNdgEchoMergeSrvConf (prev conf : NgxStreamNdgEchoSrvConf) :
    NgxStreamNdgEchoSrvConf :=
  ⟨ngxConfMerge ngxConfUnset conf.enable prev.enable 0⟩

def ngxStreamNdgDiscardCreateSrvConf : NgxStreamNdgDiscardSrvConf := ⟨ngxConfUnsetUint⟩

def ngxStreamNdgDiscardMergeSrvConf (prev conf : NgxStreamNdgDiscardSrvConf) :
    NgxStreamNdgDiscardSrvConf :=
  ⟨ngxConfMerge ngxConfUnsetUint conf.timeout prev.timeout 5000⟩

/-- The configurations of a server, with the `handler` of its core configuration. -/
structure StreamSrvConfs where
  hello : NgxStreamNdgHelloSrvConf
  echo : NgxStreamNdgEchoSrvConf
  discard : NgxStreamNdgDiscardSrvConf
  handler : Option StreamContentHandler
  deriving DecidableEq

def StreamSrvConfs.create : StreamSrvConfs where
  hello := ngxStreamNdgHelloCreateSrvConf
  echo := ngxStreamNdgEchoCreateSrvConf
  discard := ngxStreamNdgDiscardCreateSrvConf
  handler := none

/-- The handler is not inherited. -/
def StreamSrvConfs.merge (prev conf : StreamSrvConfs) : StreamSrvConfs where
  hello := ngxStreamNdgHelloMergeSrvConf prev.hello conf.hello
  echo := ngxStreamNdgEchoMergeSrvConf prev.echo conf.echo
  discard := ngxStreamNdgDiscardMergeSrvConf prev.discard conf.discard
  handler := conf.handler

/-- A directive of a server block, with its argument. Of another directive of nginx it is known
whether nginx accepts it, and the content handler that it sets, if it sets one. -/
inductive StreamDirective where
  | ndgHello (on : Bool)
  | ndgEcho
  | ndgDiscard
  | ndgDiscardTimeout (msec : UInt64)
  | ndgTime
  | other (accepted : Bool) (handler : Option ℕ)
  deriving DecidableEq

def ngxStreamNdgEcho (conf : StreamSrvConfs) : StreamSrvConfs :=
  { conf with echo := ⟨1⟩, handler := some .ndgEcho }

def ngxStreamNdgDiscard (conf : StreamSrvConfs) : StreamSrvConfs :=
  { conf with handler := some .ndgDiscard }

def ngxStreamNdgTime (conf : StreamSrvConfs) : StreamSrvConfs :=
  { conf with handler := some .ndgTime }

/-- nginx handles a directive; `none` when it refuses it. -/
def streamDirective (conf : StreamSrvConfs) : StreamDirective → Option StreamSrvConfs
  | .ndgHello on =>
    (ngxConfFlagSlot on conf.hello.enable).map fun enable => { conf with hello := ⟨enable⟩ }
  | .ndgEcho => some (ngxStreamNdgEcho conf)
  | .ndgDiscard => some (ngxStreamNdgDiscard conf)
  | .ndgDiscardTimeout msec =>
    (ngxConfMsecSlot msec conf.discard.timeout).map fun timeout =>
      { conf with discard := ⟨timeout⟩ }
  | .ndgTime => some (ngxStreamNdgTime conf)
  | .other accepted handler =>
    if accepted then some { conf with handler := (handler.map .other).or conf.handler } else none

/-- The configurations of a server block; `none` when nginx refuses a directive of it. -/
def streamConf (block : List StreamDirective) : Option StreamSrvConfs :=
  (exec streamDirective .create block).map (StreamSrvConfs.merge .create)

/-- The flag of `ndg_hello`. -/
def StreamDirective.flag? : StreamDirective → Option ℤ
  | .ndgHello on => some (ngxFlag on)
  | _ => none

/-- The time of `ndg_discard_timeout`. -/
def StreamDirective.msec? : StreamDirective → Option UInt64
  | .ndgDiscardTimeout msec => some msec
  | _ => none

/-- The content handler that a directive sets. -/
def StreamDirective.handler? : StreamDirective → Option StreamContentHandler
  | .ndgEcho => some .ndgEcho
  | .ndgDiscard => some .ndgDiscard
  | .ndgTime => some .ndgTime
  | .other _ handler => handler.map .other
  | _ => none

/-- The flag that `ndg_echo` sets. -/
def StreamDirective.echo? : StreamDirective → Option ℤ
  | .ndgEcho => some 1
  | _ => none

/-- The time of the directive, if it has one, could be parsed, and nginx accepts a directive that
is none of the modules'. -/
def StreamDirective.WellFormed : StreamDirective → Prop
  | .ndgDiscardTimeout msec => msec ≠ ngxConfUnsetUint
  | .other accepted _ => accepted = true
  | _ => True

/-- No directive of the block is refused: each is well formed, and the hello flag and the discard
timeout are set once at most. -/
structure StreamAccepted (block : List StreamDirective) : Prop where
  wellFormed : ∀ d ∈ block, d.WellFormed
  hello : (block.filterMap StreamDirective.flag?).length ≤ 1
  timeout : (block.filterMap StreamDirective.msec?).length ≤ 1

/-- The configurations that a block without refused directives is left with. -/
def StreamSrvConfs.parse (block : List StreamDirective) : StreamSrvConfs where
  hello := ⟨(block.filterMap StreamDirective.flag?).head?.getD 0⟩
  echo := ⟨if .ndgEcho ∈ block then 1 else 0⟩
  discard := ⟨(block.filterMap StreamDirective.msec?).head?.getD 5000⟩
  handler := (block.filterMap StreamDirective.handler?).getLast?

variable {conf conf' : StreamSrvConfs} {d : StreamDirective} {block : List StreamDirective}

/-- What a directive does to the configurations of the server. -/
theorem streamDirective_cases (h : streamDirective conf d = some conf') :
    (∃ on, d = .ndgHello on ∧ conf.hello.enable = ngxConfUnset ∧
      conf' = { conf with hello := ⟨ngxFlag on⟩ }) ∨
    (∃ msec, d = .ndgDiscardTimeout msec ∧ conf.discard.timeout = ngxConfUnsetUint ∧
      msec ≠ ngxConfUnsetUint ∧ conf' = { conf with discard := ⟨msec⟩ }) ∨
    (d = .ndgEcho ∧ conf' = ngxStreamNdgEcho conf) ∨
    (d.flag? = none ∧ d.msec? = none ∧ d.echo? = none ∧ d.WellFormed ∧
      conf' = { conf with handler := d.handler?.or conf.handler }) := by
  cases d with
  | ndgHello on =>
    obtain ⟨enable, hslot, rfl⟩ := Option.map_eq_some_iff.mp h
    obtain ⟨hunset, rfl⟩ := ngxConfFlagSlot_eq_some.mp hslot
    exact .inl ⟨on, rfl, hunset, rfl⟩
  | ndgDiscardTimeout msec =>
    obtain ⟨timeout, hslot, rfl⟩ := Option.map_eq_some_iff.mp h
    obtain ⟨hunset, hmsec, rfl⟩ := ngxConfMsecSlot_eq_some.mp hslot
    exact .inr (.inl ⟨_, rfl, hunset, hmsec, rfl⟩)
  | ndgEcho => exact .inr (.inr (.inl ⟨rfl, (Option.some.inj h).symm⟩))
  | ndgDiscard =>
    exact .inr (.inr (.inr ⟨rfl, rfl, rfl, trivial, (Option.some.inj h).symm⟩))
  | ndgTime =>
    exact .inr (.inr (.inr ⟨rfl, rfl, rfl, trivial, (Option.some.inj h).symm⟩))
  | other accepted handler =>
    obtain ⟨haccepted, h⟩ := Option.ite_none_right_eq_some.mp h
    exact .inr (.inr (.inr ⟨rfl, rfl, rfl, haccepted, (Option.some.inj h).symm⟩))

/-- The fields of the configurations that a directive may set once. -/
inductive StreamSlot where
  | hello
  | timeout

def StreamSlot.Value : StreamSlot → Type
  | .hello => ℤ
  | .timeout => UInt64

def StreamSlot.field : (i : StreamSlot) → StreamSrvConfs → Option i.Value
  | .hello, conf => (setValue ngxConfUnset conf.hello.enable : Option ℤ)
  | .timeout, conf => (setValue ngxConfUnsetUint conf.discard.timeout : Option UInt64)

def StreamSlot.sets : (i : StreamSlot) → StreamDirective → Option i.Value
  | .hello, d => d.flag?
  | .timeout, d => d.msec?

theorem StreamSlot.slot (i : StreamSlot) : Slot streamDirective i.field i.sets := by
  intro conf d conf' h
  obtain ⟨on, rfl, hunset, rfl⟩ | ⟨msec, rfl, hunset, hmsec, rfl⟩ | ⟨rfl, rfl⟩ |
    ⟨hflag, htime, -, -, rfl⟩ := streamDirective_cases h
  · have hfill := setValue_fill hunset (ngxFlag_ne_unset on)
    cases i with
    | hello => exact hfill
    | timeout => exact (List.append_nil _).symm
  · have hfill := setValue_fill hunset hmsec
    cases i with
    | hello => exact (List.append_nil _).symm
    | timeout => exact hfill
  · cases i with
    | hello => exact (List.append_nil _).symm
    | timeout => exact (List.append_nil _).symm
  · have hnone : i.sets d = none := by
      cases i with
      | hello => exact hflag
      | timeout => exact htime
    rw [hnone, Option.toList_none, List.append_nil]
    cases i with
    | hello => rfl
    | timeout => rfl

theorem echo_register :
    Register streamDirective (fun conf => setValue ngxConfUnset conf.echo.enable)
      StreamDirective.echo? := by
  intro conf d conf' h
  obtain ⟨_, rfl, _, rfl⟩ | ⟨_, rfl, _, _, rfl⟩ | ⟨rfl, rfl⟩ | ⟨-, -, hecho, -, rfl⟩ :=
    streamDirective_cases h
  · rfl
  · rfl
  · rfl
  · rw [hecho, Option.none_or]

theorem handler_register :
    Register streamDirective StreamSrvConfs.handler StreamDirective.handler? := by
  intro conf d conf' h
  obtain ⟨_, rfl, _, rfl⟩ | ⟨_, rfl, _, _, rfl⟩ | ⟨rfl, rfl⟩ | ⟨-, -, -, -, rfl⟩ :=
    streamDirective_cases h
  all_goals rfl

/-- A directive is refused when it is malformed or sets a slot again. -/
theorem streamDirective_accepted_iff :
    (∃ conf', streamDirective conf d = some conf') ↔
      d.WellFormed ∧ ∀ i : StreamSlot, ((i.field conf).toList ++ (i.sets d).toList).length ≤ 1 := by
  constructor
  · rintro ⟨conf', h⟩
    refine ⟨?_, fun i => ?_⟩
    · obtain ⟨_, rfl, _, rfl⟩ | ⟨_, rfl, _, hne, rfl⟩ | ⟨rfl, rfl⟩ | ⟨-, -, -, hwf, -⟩ :=
        streamDirective_cases h
      · trivial
      · exact hne
      · trivial
      · exact hwf
    · rw [← i.slot conf d conf' h]
      exact Option.length_toList_le
  · rintro ⟨hwf, hslots⟩
    have hunset : ∀ (i : StreamSlot) v, i.sets d = some v → i.field conf = none := by
      intro i v hsets
      have hle := hslots i
      rw [hsets, List.length_append, Option.toList_some, List.length_singleton] at hle
      exact Option.length_toList_eq_zero_iff.mp (by omega)
    cases d with
    | ndgHello on =>
      have hnone := setValue_eq_none_iff.mp (hunset .hello _ rfl)
      exact ⟨_, Option.map_eq_some_iff.mpr ⟨_, ngxConfFlagSlot_eq_some.mpr ⟨hnone, rfl⟩, rfl⟩⟩
    | ndgDiscardTimeout msec =>
      have hnone := setValue_eq_none_iff.mp (hunset .timeout _ rfl)
      exact ⟨_, Option.map_eq_some_iff.mpr
        ⟨_, ngxConfMsecSlot_eq_some.mpr ⟨hnone, hwf, rfl⟩, rfl⟩⟩
    | ndgEcho => exact ⟨_, rfl⟩
    | ndgDiscard => exact ⟨_, rfl⟩
    | ndgTime => exact ⟨_, rfl⟩
    | other accepted handler => exact ⟨_, if_pos hwf⟩

theorem getLast?_echo? (block : List StreamDirective) :
    ((block.filterMap StreamDirective.echo?).getLast?).getD 0 =
      if .ndgEcho ∈ block then 1 else 0 := by
  have hall : ∀ a ∈ block.filterMap StreamDirective.echo?, a = 1 := by
    intro a ha
    obtain ⟨d, -, hd⟩ := List.mem_filterMap.mp ha
    cases d with
    | ndgEcho => exact (Option.some.inj hd).symm
    | _ => exact nomatch hd
  split
  case isTrue hmem =>
    have hne : block.filterMap StreamDirective.echo? ≠ [] :=
      List.ne_nil_of_mem (List.mem_filterMap.mpr ⟨_, hmem, rfl⟩)
    rw [List.getLast?_eq_some_getLast hne]
    exact hall _ (List.getLast_mem hne)
  case isFalse hmem =>
    have hnil : block.filterMap StreamDirective.echo? = [] := by
      rw [List.filterMap_eq_nil_iff]
      intro d hd
      cases d with
      | ndgEcho => exact absurd hd hmem
      | _ => rfl
    rw [hnil]
    rfl

theorem exec_streamDirective_iff :
    (∃ conf, Transition.exec streamDirective .create block = some conf) ↔
      StreamAccepted block := by
  rw [exists_exec_iff StreamSlot.slot fun _ _ => streamDirective_accepted_iff]
  constructor
  · rintro ⟨hwf, hslots⟩
    exact ⟨hwf, hslots .hello, hslots .timeout⟩
  · intro h
    refine ⟨h.wellFormed, fun i => ?_⟩
    cases i with
    | hello => exact h.hello
    | timeout => exact h.timeout

/-- The configurations that the merge makes of those of a block without refused directives. -/
theorem merge_exec_streamDirective
    (h : Transition.exec streamDirective .create block = some conf) :
    StreamSrvConfs.merge .create conf = .parse block := by
  have hhello : setValue ngxConfUnset conf.hello.enable =
      (block.filterMap StreamDirective.flag?).head? := (StreamSlot.slot .hello).exec_of_none rfl h
  have htimeout : setValue ngxConfUnsetUint conf.discard.timeout =
      (block.filterMap StreamDirective.msec?).head? :=
    (StreamSlot.slot .timeout).exec_of_none rfl h
  have hecho : setValue ngxConfUnset conf.echo.enable =
      (block.filterMap StreamDirective.echo?).getLast? :=
    (echo_register.exec h).trans Option.or_none
  have hhandler : conf.handler = (block.filterMap StreamDirective.handler?).getLast? :=
    (handler_register.exec h).trans Option.or_none
  unfold StreamSrvConfs.parse
  rw [← hhello, ← htimeout, ← getLast?_echo?, ← hecho, ← hhandler, ← ngxConfMerge_unset,
    ← ngxConfMerge_unset, ← ngxConfMerge_unset]
  rfl

/-- An echo server whose content handler another directive has taken over still has its flag. -/
example : streamConf [.ndgEcho, .ndgHello true, .other true (some 7)] =
    some ⟨⟨1⟩, ⟨1⟩, ⟨5000⟩, some (.other 7)⟩ := by decide

end NgxNdg
