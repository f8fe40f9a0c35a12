import NgxNdg.Upstream.Line

/-!
# The client of a line

The upstream module reads what a server sends in pieces of any size, at any time. Of the server it
has to be known only that all it ever sends is a part of one line, and that the line is settled
before its first byte is sent; which line that is, and when, may depend on the run.

## Main definitions

- `UpstreamConnection`, `connectionStep`: a client and a server, whichever that is
- `SendsLine`: what is asked of the server
- `LineRead`: what the client has of a line
-/

namespace NgxNdg

open Transition

-- ════════════════════════════════════════════════════════════════════════
-- A line in pieces
-- ════════════════════════════════════════════════════════════════════════

/-- What a client has made of the first `read` bytes of `line` and its line feed. -/
structure LineRead (size : ℕ) (line : List UInt8) (read : ℕ) (client : UpstreamReader) : Prop where
  read_le : read ≤ line.length + 1
  again : read ≤ line.length → Reading size (line.take read) client
  ok : line.length < read → HeaderRead line client ∧ client.delivered = line

/-- A piece of a list is the same piece of a longer one. -/
theorem piece_append (l m : List UInt8) {i k : ℕ} (h : i + k ≤ l.length) :
    ((l ++ m).drop i).take k = (l.drop i).take k := by
  have hrest : k ≤ (l.drop i).length := by
    rw [List.length_drop]
    omega
  rw [List.drop_append_of_le_length (by omega), List.take_append_of_le_length hrest]

/-- The last piece is the rest of the line and the line feed. -/
theorem last_piece (line : List UInt8) {i k : ℕ} (hi : i ≤ line.length)
    (hall : i + k = line.length + 1) :
    ((line ++ [lf]).drop i).take k = line.drop i ++ [lf] := by
  rw [List.drop_append_of_le_length hi, List.take_of_length_le]
  rw [List.length_append, List.length_drop, List.length_singleton]
  omega

variable {size read k : ℕ} {line : List UInt8} {client client' : UpstreamReader}

theorem LineRead.init (h : Reading size [] client) : LineRead size line 0 client where
  read_le := Nat.zero_le _
  again := fun _ => h
  ok := fun hlt => absurd hlt (Nat.not_lt_zero _)

/-- The client reads the next piece of the line. -/
theorem LineRead.recv (h : LineRead size line read client) (hlf : lf ∉ line)
    (hfit : line.length + 1 ≤ size) (hk : k ≠ 0) (hle : read + k ≤ line.length + 1)
    (hrecv : client.recv (((line ++ [lf]).drop read).take k) = some client') :
    LineRead size line (read + k) client' := by
  have hreading := h.again (by omega)
  by_cases hmore : read + k ≤ line.length
  · -- the line feed is not among them
    rw [piece_append line [lf] hmore] at hrecv
    have htaken : line.take read ++ (line.drop read).take k = line.take (read + k) :=
      List.take_add.symm
    have hroom : (line.take read ++ (line.drop read).take k).length ≤ size := by
      rw [htaken, List.length_take]
      omega
    have hno : lf ∉ (line.drop read).take k := fun hmem =>
      hlf (List.mem_of_mem_drop (List.mem_of_mem_take hmem))
    obtain ⟨t, ht, hnext⟩ := hreading.recv_again hroom hno
    obtain rfl := Option.some.inj (hrecv.symm.trans ht)
    rw [htaken] at hnext
    exact ⟨hle, fun _ => hnext, fun hlt => absurd hlt (Nat.not_lt.mpr hmore)⟩
  · -- they end with it
    rw [last_piece line (by omega) (by omega)] at hrecv
    have htaken : line.take read ++ (line.drop read ++ [lf]) = line ++ [lf] := by
      rw [← List.append_assoc, List.take_append_drop]
    have hroom : (line.take read ++ (line.drop read ++ [lf])).length ≤ size := by
      rw [htaken, List.length_append, List.length_singleton]
      exact hfit
    have hmem : lf ∈ line.drop read ++ [lf] :=
      List.mem_append_right _ (List.mem_singleton_self lf)
    obtain ⟨t, ht, hdone, hdelivered⟩ := hreading.recv_ok hroom hmem
    obtain rfl := Option.some.inj (hrecv.symm.trans ht)
    rw [htaken, lineOf_append_lf hlf] at hdone hdelivered
    exact ⟨hle, fun hle => absurd hle hmore, fun _ => ⟨hdone, hdelivered⟩⟩

-- ════════════════════════════════════════════════════════════════════════
-- A client and a server
-- ════════════════════════════════════════════════════════════════════════

variable {σ ε : Type*}

/-- A client that has read `read` of the bytes that the server has sent. -/
structure UpstreamConnection (σ : Type*) where
  client : UpstreamReader
  read : ℕ
  server : σ

inductive ConnectionEvent (ε : Type*) where
  /-- an event of the server -/
  | server (e : ε)
  /-- the client reads `k` bytes -/
  | clientRead (k : ℕ)

/-- One step. A read brings one byte at least and no more than has been sent. -/
def connectionStep (step : σ → ε → Option σ) (sent : σ → List UInt8)
    (c : UpstreamConnection σ) : ConnectionEvent ε → Option (UpstreamConnection σ)
  | .server e => (step c.server e).map fun server => { c with server := server }
  | .clientRead k =>
    if k = 0 ∨ (sent c.server).length < c.read + k then none
    else
      (c.client.recv (((sent c.server).drop c.read).take k)).map
        fun client => { c with client := client, read := c.read + k }

/-- On the events `E` and from the states `I`, all that a server sends is a part of the line that
`Line` has settled, which fits into a buffer of `size` bytes. -/
structure SendsLine (step : σ → ε → Option σ) (sent : σ → List UInt8) (E : ε → Prop)
    (I : σ → Prop) (Line : σ → List UInt8 → Prop) (size : ℕ) : Prop where
  keep : ∀ s e t, E e → I s → step s e = some t → I t
  settles : ∀ s, I s → sent s ≠ [] → ∃ line, Line s line
  sends : ∀ s line, I s → Line s line → sent s <+: line ++ [lf]
  line_keep : ∀ s e t line, I s → Line s line → step s e = some t → Line t line
  no_lf : ∀ s line, Line s line → lf ∉ line
  fits : ∀ s line, Line s line → line.length + 1 ≤ size

variable {step : σ → ε → Option σ} {sent : σ → List UInt8} {E : ε → Prop} {I : σ → Prop}
  {Line : σ → List UInt8 → Prop} {c d : UpstreamConnection σ}

/-- The client has read nothing, or a part of the line that is settled. -/
structure ConnectionInv (I : σ → Prop) (Line : σ → List UInt8 → Prop) (size : ℕ)
    (c : UpstreamConnection σ) : Prop where
  server : I c.server
  client : (c.read = 0 ∧ Reading size [] c.client) ∨
    ∃ line, Line c.server line ∧ LineRead size line c.read c.client

theorem ConnectionInv.serverStep (h : ConnectionInv I Line size c)
    (hline : SendsLine step sent E I Line size) {e : ε} (he : E e)
    (hstep : connectionStep step sent c (.server e) = some d) : ConnectionInv I Line size d := by
  obtain ⟨t, ht, rfl⟩ := Option.map_eq_some_iff.mp hstep
  refine ⟨hline.keep c.server e t he h.server ht, ?_⟩
  obtain hnone | ⟨line, hsettled, hread⟩ := h.client
  · exact .inl hnone
  · exact .inr ⟨line, hline.line_keep c.server e t line h.server hsettled ht, hread⟩

theorem ConnectionInv.clientRead (h : ConnectionInv I Line size c)
    (hline : SendsLine step sent E I Line size)
    (hstep : connectionStep step sent c (.clientRead k) = some d) :
    ConnectionInv I Line size d := by
  obtain ⟨hguard, hstep⟩ := Option.ite_none_left_eq_some.mp hstep
  obtain ⟨client, hrecv, rfl⟩ := Option.map_eq_some_iff.mp hstep
  rw [not_or, not_lt] at hguard
  obtain ⟨hk, hle⟩ := hguard
  have hsettled : ∃ line, Line c.server line ∧ LineRead size line c.read c.client := by
    obtain ⟨hzero, hreading⟩ | hsome := h.client
    · have hsent : sent c.server ≠ [] := by
        intro hnil
        rw [hnil, List.length_nil] at hle
        omega
      obtain ⟨line, hl⟩ := hline.settles c.server h.server hsent
      rw [hzero]
      exact ⟨line, hl, .init hreading⟩
    · exact hsome
  obtain ⟨line, hl, hread⟩ := hsettled
  -- what comes next is the next piece of the line
  obtain ⟨rest, hrest⟩ := hline.sends c.server line h.server hl
  have htotal := congrArg List.length hrest
  simp only [List.length_append, List.length_singleton] at htotal
  rw [← piece_append _ rest hle, hrest] at hrecv
  have hnext := hread.recv (hline.no_lf c.server line hl) (hline.fits c.server line hl) hk
    (by omega) hrecv
  exact ⟨h.server, .inr ⟨line, hl, hnext⟩⟩

/-- The events of the server are among `E`. -/
def ConnectionEvent.Allowed (E : ε → Prop) : ConnectionEvent ε → Prop
  | .server e => E e
  | .clientRead _ => True

/-- **The client of a line.** In every interleaving of the events of a server that sends a line and
of the reads of the client, the client has read nothing, or it has a part of the line. -/
theorem SendsLine.connection_along (hline : SendsLine step sent E I Line size)
    (h : ConnectionInv I Line size c) {es : List (ConnectionEvent ε)}
    (hes : ∀ e ∈ es, e.Allowed E) :
    Along (connectionStep step sent) (ConnectionInv I Line size) c es := by
  refine Along.of_invariant_of_forall ?_ h hes
  intro c e d he h hstep
  cases e with
  | server e => exact h.serverStep hline he hstep
  | clientRead k => exact h.clientRead hline hstep

end NgxNdg
