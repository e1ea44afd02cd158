import Mathlib
import Zetta.Vt100.LineEmulator
import Zetta.Zosh.Scrollback
import Zetta.Zosh.Server.Contiguity
import Zetta.Zosh.Server.Frames

/-!
# Scrollback markers, written and read

The server writes the pending rows a base has not been sent as one operating system command,
and the client reads them back. What the client ends up with is the server's count of
evictions, the index of the first row carried, and the rows (`marker_round_trip`): for every
run that loses no rows inside an operation (`TerminalState.NoLoss`), every base, and every way
the command is cut into chunks.

* **Reading**: the fixed buffer of the client always holds the whole header, and what does not
  fit it is payload (`feed_body`); the payload decodes to the rows framed in it
  (`decodeFrames_markerPayload`).
* **Counting**: only the first index travels, so that the count the client derives is right
  because the rows are aligned (`Aligned.markerFirst_add`).
-/

namespace Zetta.Zosh

open List Vt100 Server

universe u

/-! ### Framed rows -/

/-- A pending row as the client keeps it. -/
def carriedRow (r : PendingRow) : ScrollbackRow := ⟨sanitizeRow r.row.contents, r.row.wrapped⟩

variable {n : ℕ}

theorem fromBeBytes_toBeBytes (h : n < 2 ^ 32) : fromBeBytes (toBeBytes n) = n := by
  simp only [fromBeBytes, toBeBytes, foldl_cons, foldl_nil, UInt8.toNat_ofNat']
  omega

/-- A row's frame is read back, whatever follows it. -/
theorem decodeFrames_frame (n : ℕ) (r : PendingRow) (rest : List UInt8) :
    decodeFrames (n + 1) (r.frame ++ rest) =
      (decodeFrames n rest).map fun rows => carriedRow r :: rows := by
  have hlen := fromBeBytes_toBeBytes r.row.length_lt
  have hframe : r.frame ++ rest =
      ((if r.row.wrapped then SCROLLBACK_FLAG_WRAPPED else 0) ::
        toBeBytes r.row.contents.length) ++ (r.row.contents ++ rest) := by
    simp [PendingRow.frame]
  have hheader : ((if r.row.wrapped then SCROLLBACK_FLAG_WRAPPED else 0) ::
      toBeBytes r.row.contents.length).length = ROW_HEADER := rfl
  have hne : r.frame ++ rest ≠ [] := by simp [PendingRow.frame]
  have hge : ¬ (r.frame ++ rest).length < ROW_HEADER := by
    rw [hframe, length_append, hheader]
    omega
  have htake : (r.frame ++ rest).take ROW_HEADER =
      (if r.row.wrapped then SCROLLBACK_FLAG_WRAPPED else 0) ::
        toBeBytes r.row.contents.length := by
    rw [hframe]; exact take_left' hheader
  have hdrop : (r.frame ++ rest).drop ROW_HEADER = r.row.contents ++ rest := by
    rw [hframe]; exact drop_left' hheader
  have hflag : (decide (((if r.row.wrapped then SCROLLBACK_FLAG_WRAPPED else 0) &&& 1 : UInt8) ≠
      0)) = r.row.wrapped := by
    cases r.row.wrapped <;> decide
  have hhead : (r.frame ++ rest).headD 0 =
      if r.row.wrapped then SCROLLBACK_FLAG_WRAPPED else 0 := rfl
  have hfit : ¬ (r.row.contents ++ rest).length < r.row.contents.length := by
    rw [length_append]; omega
  rw [decodeFrames, if_neg hne, if_neg hge]
  simp only [htake, hdrop, drop_succ_cons, drop_zero, hlen, if_neg hfit, hhead, hflag,
    drop_left, take_left]
  rfl

variable {rows : List PendingRow}

/-- **The payload decodes to the rows framed in it.** -/
theorem decodeFrames_markerPayload (h : rows.length ≤ n) :
    decodeFrames n (markerPayload rows) = some (rows.map carriedRow) := by
  induction rows generalizing n with
  | nil => cases n <;> simp [decodeFrames, markerPayload]
  | cons r rows ih =>
    rw [length_cons] at h
    obtain ⟨n, rfl⟩ : ∃ k, n = k + 1 := ⟨n - 1, by omega⟩
    rw [markerPayload, flatMap_cons, decodeFrames_frame, ← markerPayload, ih (by omega)]
    rfl

/-- The payload is as long as the rows cost. -/
theorem length_markerPayload (rows : List PendingRow) :
    (markerPayload rows).length = (rows.map PendingRow.cost).sum := by
  induction rows with
  | nil => rfl
  | cons r rows ih =>
    rw [markerPayload, flatMap_cons, length_append, ← markerPayload, ih, map_cons,
      sum_cons]
    simp [PendingRow.frame, PendingRow.cost, toBeBytes, SCROLLBACK_ROW_HEADER]

theorem length_le_length_markerPayload (rows : List PendingRow) :
    rows.length ≤ (markerPayload rows).length := by
  induction rows with
  | nil => exact Nat.zero_le _
  | cons r rows ih =>
    rw [markerPayload, flatMap_cons, length_append, ← markerPayload, length_cons]
    have : 0 < r.frame.length := by simp [PendingRow.frame]
    omega

section

variable [Base64]

theorem decodeRows_encode (rows : List PendingRow) :
    decodeRows (Base64.encode (markerPayload rows)) = some (rows.map carriedRow) := by
  rw [decodeRows, Base64.decode_encode, Option.bind_some]
  exact decodeFrames_markerPayload (length_le_length_markerPayload rows)

/-! ### The command -/

namespace ScrollbackState

omit [Base64] in
private theorem ne_of_noControl {b : UInt8} (h : 0x20 ≤ b) :
    b ≠ 0x07 ∧ b ≠ 0x1b ∧ b ≠ 0x18 ∧ b ≠ 0x1a := by
  refine ⟨?_, ?_, ?_, ?_⟩ <;> rintro rfl <;> exact absurd h (by decide)

variable {s : ScrollbackState} {text : List UInt8}

/-- Bytes that fit the marker buffer go there. -/
theorem feed_buffer (hs : s.parser = .osc) (htext : NoControl text)
    (hfit : s.bytes.length + text.length ≤ MAX_MARKER) :
    s.feed text = { s with bytes := s.bytes ++ text } := by
  induction text generalizing s with
  | nil => simp [feed]
  | cons b text ih =>
    rw [length_cons] at hfit
    obtain ⟨h7, h1b, h18, h1a⟩ := ne_of_noControl (htext b mem_cons_self)
    have hlt : s.bytes.length < MAX_MARKER := by omega
    have hstep : s.feedByte b = { s with bytes := s.bytes ++ [b] } := by
      rw [feedByte, hs]
      simp only [feedOsc, h7, h1b, h18, h1a, hlt, if_true, if_false, or_self]
      rw [hs]
    rw [feed, foldl_cons, ← feed, hstep]
    rw [ih (s := { s with bytes := s.bytes ++ [b] }) hs
      (fun b hb => htext b (mem_cons_of_mem _ hb))
      (by simp only [length_append, length_singleton]; omega)]
    simp

/-- Bytes that fit the payload go there. -/
theorem feed_payload (hs : s.parser = .oscPayload) (htext : NoControl text)
    (hfit : s.payload.length + text.length ≤ MAX_PAYLOAD) :
    s.feed text = { s with payload := s.payload ++ text } := by
  induction text generalizing s with
  | nil => simp [feed]
  | cons b text ih =>
    rw [length_cons] at hfit
    obtain ⟨h7, h1b, h18, h1a⟩ := ne_of_noControl (htext b mem_cons_self)
    have hlt : s.payload.length < MAX_PAYLOAD := by omega
    have hstep : s.feedByte b = { s with payload := s.payload ++ [b] } := by
      rw [feedByte, hs]
      simp only [feedPayload, h7, h1b, h18, h1a, hlt, if_true, if_false, or_self]
      rw [hs]
    rw [feed, foldl_cons, ← feed, hstep]
    rw [ih (s := { s with payload := s.payload ++ [b] }) hs
      (fun b hb => htext b (mem_cons_of_mem _ hb))
      (by simp only [length_append, length_singleton]; omega)]
    simp

/-- **A command's body** fills the marker buffer first; of a command that carries rows, the
rest is payload. -/
theorem feed_body (hs : s.parser = .osc) (hbytes : s.bytes = []) (hpayload : s.payload = [])
    {body : List UInt8} (hbody : NoControl body)
    (hrowsPrefix : ROWS_PREFIX.isPrefixOf (body.take MAX_MARKER) = true)
    (hfit : body.length ≤ MAX_MARKER + MAX_PAYLOAD) :
    ∃ parser, (parser = .osc ∨ parser = .oscPayload) ∧ s.feed body =
      { s with
        parser := parser
        bytes := body.take MAX_MARKER
        payload := body.drop MAX_MARKER } := by
  have hhead : NoControl (body.take MAX_MARKER) := fun b hb => hbody b (mem_of_mem_take hb)
  have hbuffer : s.feed (body.take MAX_MARKER) = { s with bytes := body.take MAX_MARKER } := by
    rw [feed_buffer hs hhead (by rw [hbytes, length_take]; simp), hbytes, nil_append]
  cases hdrop : body.drop MAX_MARKER with
  | nil =>
    have hle : body.length ≤ MAX_MARKER := drop_eq_nil_iff.mp hdrop
    rw [take_of_length_le hle] at hbuffer ⊢
    exact ⟨.osc, .inl rfl, by rw [hbuffer, ← hs, ← hpayload]⟩
  | cons b rest =>
    have hlen := congrArg List.length hdrop
    rw [length_drop, length_cons] at hlen
    have htail : NoControl (b :: rest) := fun c hc =>
      hbody c (mem_of_mem_drop (hdrop ▸ hc))
    obtain ⟨h7, h1b, h18, h1a⟩ := ne_of_noControl (htail b mem_cons_self)
    have hfull : ¬ (body.take MAX_MARKER).length < MAX_MARKER := by
      rw [length_take]; omega
    have hstep : feedByte { s with bytes := body.take MAX_MARKER } b =
        { s with bytes := body.take MAX_MARKER, payload := [b], parser := .oscPayload } := by
      simp only [feedByte, hs, feedOsc, h7, h1b, h18, h1a, hfull, if_false, or_self, hrowsPrefix,
        if_true, hpayload, nil_append]
    refine ⟨.oscPayload, .inr rfl, ?_⟩
    conv_lhs => rw [← take_append_drop MAX_MARKER body]
    rw [feed_append, hbuffer, hdrop, feed, foldl_cons, hstep, ← feed]
    rw [feed_payload (s := { s with
      bytes := body.take MAX_MARKER, payload := [b], parser := .oscPayload }) rfl
      (fun c hc => htail c (mem_cons_of_mem _ hc))
      (by simp only [length_singleton]; omega)]
    simp

/-- The body of a command that carries rows. -/
def rowsBody (first : ℕ) (encoded : List UInt8) : List UInt8 :=
  ROWS_PREFIX ++ (Decimal.decimal first ++ 0x3b :: encoded)

/-- The end of a command that carries rows: the index and the rows are read. -/
theorem finishRows_eq {first : ℕ} {encoded : List UInt8} {rows : List ScrollbackRow}
    (hfirst : first < 2 ^ 64) (hbytes : s.bytes = (rowsBody first encoded).take MAX_MARKER)
    (hpayload : s.payload = (rowsBody first encoded).drop MAX_MARKER)
    (hrows : decodeRows encoded = some rows) :
    s.finishRows =
      { s with
        payload := []
        evicted := min (first + rows.length) (2 ^ 64 - 1)
        rowsFirst := first
        rows := rows
        active := true } := by
  have hdigits : (Decimal.decimal first).length ≤ 20 :=
    Decimal.length_decimal_le (by decide) (hfirst.trans (by decide))
  have hplen : ROWS_PREFIX.length = 20 := rfl
  -- The header ends inside the buffer, whatever part of the rows follows it there.
  have hbody : s.bytes.drop ROWS_PREFIX.length =
      Decimal.decimal first ++ 0x3b ::
        encoded.take (MAX_MARKER - 20 - (Decimal.decimal first).length - 1) := by
    rw [hbytes, drop_take, rowsBody, drop_left, take_append, hplen,
      take_of_length_le (by show _ ≤ 26; omega)]
    congr 1
    obtain ⟨k, hk⟩ : ∃ k, MAX_MARKER - 20 - (Decimal.decimal first).length = k + 1 :=
      ⟨25 - (Decimal.decimal first).length, by show 26 - _ = _; omega⟩
    rw [hk, take_succ_cons, Nat.add_sub_cancel]
  have hsemi : ∀ b ∈ Decimal.decimal first, (b != 0x3b) = true := by
    intro b hb
    have hle := (Decimal.isDigit_of_mem_decimal hb).2
    rw [bne_iff_ne]
    rintro rfl
    exact absurd hle (by decide)
  have htake : (s.bytes.drop ROWS_PREFIX.length).takeWhile (· != 0x3b) =
      Decimal.decimal first := by
    rw [hbody, takeWhile_append_of_pos hsemi, takeWhile_cons_of_neg (by decide),
      append_nil]
  have hne : ¬ (Decimal.decimal first).length = (s.bytes.drop ROWS_PREFIX.length).length := by
    rw [hbody, length_append, length_cons]
    omega
  have hparse : parseIndex (Decimal.decimal first) = some first := by
    rw [parseIndex, if_neg (Decimal.decimal_ne_nil first)]
    exact Decimal.parseFrom_decimal hfirst
  have hencoded : (s.bytes.drop ROWS_PREFIX.length).drop ((Decimal.decimal first).length + 1) ++
      s.payload = encoded := by
    have hhead : (s.bytes.drop ROWS_PREFIX.length).drop ((Decimal.decimal first).length + 1) =
        encoded.take (MAX_MARKER - 20 - (Decimal.decimal first).length - 1) := by
      rw [hbody, ← drop_drop, drop_left]
      rfl
    have htail : s.payload =
        encoded.drop (MAX_MARKER - 20 - (Decimal.decimal first).length - 1) := by
      have hcut : MAX_MARKER = 20 + ((Decimal.decimal first).length +
          (1 + (MAX_MARKER - 20 - (Decimal.decimal first).length - 1))) := by
        show 46 = 20 + (_ + (1 + (26 - _ - 1)))
        omega
      rw [hpayload, hcut, rowsBody, ← drop_drop, ← hplen, drop_left, ← drop_drop,
        drop_left, ← drop_drop, drop_one, tail_cons, hplen]
      congr 1
      omega
    rw [hhead, htail, take_append_drop]
  simp only [finishRows, htake, if_neg hne, hparse, hencoded, hrows]

/-- **A command that carries rows** is read, from any state between sequences. -/
theorem feed_rowsMarker (hs : s.parser = .ground) {first : ℕ} {encoded : List UInt8}
    {rows : List ScrollbackRow} (hfirst : first < 2 ^ 64) (hencoded : NoControl encoded)
    (hfit : encoded.length ≤ MAX_PAYLOAD) (hrows : decodeRows encoded = some rows) :
    (s.feed (osc (rowsBody first encoded))).evicted =
        min (first + rows.length) (2 ^ 64 - 1) ∧
      (s.feed (osc (rowsBody first encoded))).rowsFirst = first ∧
      (s.feed (osc (rowsBody first encoded))).rows = rows ∧
      (s.feed (osc (rowsBody first encoded))).active = true ∧
      (s.feed (osc (rowsBody first encoded))).generation = s.generation ∧
      (s.feed (osc (rowsBody first encoded))).parser = .ground := by
  have hbody : NoControl (rowsBody first encoded) := by
    refine NoControl.append (by decide +kernel) (NoControl.append ?_ ?_)
    · intro b hb
      exact UInt8.le_trans (show (0x20 : UInt8) ≤ 0x30 by decide)
        (Decimal.isDigit_of_mem_decimal hb).1
    · exact @NoControl.append [0x3b] _ (by decide +kernel) hencoded
  have hdigits : (Decimal.decimal first).length ≤ 20 :=
    Decimal.length_decimal_le (by decide) (hfirst.trans (by decide))
  have htake : (rowsBody first encoded).take MAX_MARKER =
      ROWS_PREFIX ++ (Decimal.decimal first ++ 0x3b :: encoded).take 26 := by
    rw [rowsBody, take_append]
    rfl
  have hrowsPrefix : ROWS_PREFIX.isPrefixOf ((rowsBody first encoded).take MAX_MARKER) = true := by
    rw [htake, List.isPrefixOf_iff_prefix]
    exact prefix_append _ _
  have hclear : PREFIX.isPrefixOf ((rowsBody first encoded).take MAX_MARKER) = false := by
    rw [htake]
    rfl
  have hopen : s.feed [0x1b, 0x5d] =
      { s with parser := .osc, bytes := [], payload := [] } := by
    simp [feed, feedByte, hs]
  obtain ⟨parser, hparser, hfed⟩ := feed_body
    (s := { s with parser := .osc, bytes := [], payload := [] }) rfl rfl rfl hbody hrowsPrefix (by
      have hp : ROWS_PREFIX.length = 20 := rfl
      simp only [rowsBody, length_append, length_cons, hp]
      show _ ≤ 46 + MAX_PAYLOAD
      omega)
  have hfeed : s.feed (osc (rowsBody first encoded)) =
      feedByte { s with
        parser := parser
        bytes := (rowsBody first encoded).take MAX_MARKER
        payload := (rowsBody first encoded).drop MAX_MARKER } 0x07 := by
    rw [osc, feed_append, feed_append, hopen, hfed]
    rfl
  have hfinish : ∀ t : ScrollbackState, t.bytes = (rowsBody first encoded).take MAX_MARKER →
      t.payload = (rowsBody first encoded).drop MAX_MARKER →
      t.finish = { t with
        payload := []
        evicted := min (first + rows.length) (2 ^ 64 - 1)
        rowsFirst := first
        rows := rows
        active := true } := by
    intro t hb hp
    have hpre : ROWS_PREFIX.isPrefixOf t.bytes = true := hb ▸ hrowsPrefix
    have hpre' : PREFIX.isPrefixOf t.bytes = false := hb ▸ hclear
    simp only [finish, hpre, hpre', if_true, Bool.false_eq_true, if_false]
    exact finishRows_eq hfirst hb hp hrows
  rw [hfeed]
  rcases hparser with rfl | rfl
  · simp only [feedByte, feedOsc, if_true]
    rw [hfinish _ rfl rfl]
    exact ⟨rfl, rfl, rfl, rfl, rfl, trivial⟩
  · simp only [feedByte, feedPayload, if_true]
    rw [hfinish _ rfl rfl]
    exact ⟨rfl, rfl, rfl, rfl, rfl, trivial⟩

end ScrollbackState

/-! ### Counting -/

variable {total : ℕ}

omit [Base64] in
/-- The first index named and the rows carried add up to the count of evictions. -/
theorem Server.Aligned.markerFirst_add (h : Aligned rows total) :
    markerFirst rows total + rows.length = total := by
  obtain ⟨hlen, hindex⟩ := h
  cases rows with
  | nil => rfl
  | cons r rows =>
    rw [length_cons] at hlen hindex
    rw [map_cons, range'_succ] at hindex
    have hfirst : r.index = total - (rows.length + 1) := (List.cons.inj hindex).1
    show r.index + (rows.length + 1) = total
    omega

omit [Base64] in
private theorem dropWhile_eq_filter (h : (rows.map PendingRow.index).Pairwise (· < ·)) :
    rows.dropWhile (fun row => decide (row.index < n)) =
      rows.filter fun row => decide (n ≤ row.index) := by
  induction rows with
  | nil => rfl
  | cons r rows ih =>
    rw [map_cons, pairwise_cons] at h
    by_cases hr : r.index < n
    · rw [dropWhile_cons_of_pos (by simpa using hr),
        filter_cons_of_neg (by simpa using hr), ih h.2]
    · rw [dropWhile_cons_of_neg (by simpa using hr), eq_comm, filter_eq_self]
      intro row hrow
      rcases mem_cons.mp hrow with rfl | hrow
      · simpa using hr
      · have := h.1 row.index (mem_map_of_mem hrow)
        simp only [decide_eq_true_eq]
        omega

omit [Base64] in
/-- The rows a frame carries are the pending ones its base has not been sent. -/
theorem Server.Aligned.rowsFrom_eq_filter {Screen : Type u} {s : TerminalState Screen}
    (h : Aligned s.pendingScrollback.items total) (n : ℕ) :
    s.rowsFrom n = s.pendingScrollback.items.filter fun row => decide (n ≤ row.index) :=
  dropWhile_eq_filter (h.2 ▸ pairwise_lt_range')

/-- **A marker** for rows that are aligned and fit the payload is read back. -/
theorem feed_scrollbackMarker {c : ScrollbackState} (hc : c.parser = .ground)
    (h : Aligned rows total) (htotal : total < 2 ^ 64)
    (hfit : 2 * (rows.map PendingRow.cost).sum ≤ MAX_PAYLOAD) :
    (c.feed (scrollbackMarker rows total)).evicted = total ∧
      (c.feed (scrollbackMarker rows total)).rowsFirst = markerFirst rows total ∧
      (c.feed (scrollbackMarker rows total)).rows = rows.map carriedRow ∧
      (c.feed (scrollbackMarker rows total)).active = true ∧
      (c.feed (scrollbackMarker rows total)).generation = c.generation ∧
      (c.feed (scrollbackMarker rows total)).parser = .ground := by
  have hadd := h.markerFirst_add
  have hmarker : scrollbackMarker rows total = osc (ScrollbackState.rowsBody
      (markerFirst rows total) (Base64.encode (markerPayload rows))) := by
    rw [scrollbackMarker_eq_osc, ScrollbackState.rowsBody]
    simp only [append_assoc, singleton_append]
    rfl
  have hencode : NoControl (Base64.encode (markerPayload rows)) := fun b hb =>
    UInt8.le_trans (show (0x20 : UInt8) ≤ 0x2b by decide) (Base64.mem_encode hb).1
  have hlen := Base64.length_encode_le (markerPayload rows)
  rw [length_markerPayload] at hlen
  obtain ⟨hev, hfirst, hrows, hrest⟩ := ScrollbackState.feed_rowsMarker hc
    (show markerFirst rows total < 2 ^ 64 by omega) hencode (hlen.trans hfit)
    (decodeRows_encode rows)
  rw [hmarker]
  refine ⟨hev.trans ?_, hfirst, hrows, hrest⟩
  rw [length_map, hadd]
  omega

/-! ### Runs -/

omit [Base64] in
/-- The budget of a session nobody asked for history. -/
theorem Server.TerminalState.total_le_of_run {Screen : Type u} {em : Emulator Screen}
    {s : TerminalState Screen} {ops : List TerminalOp} {rows cols : ℕ}
    (hrun : Run (Succeeds (TerminalState.step em)) (.new em rows cols) ops s) :
    s.pendingScrollback.total ≤ SCROLLBACK_BUDGET_PROVISIONAL := by
  obtain ⟨hacc, hun, hbudget⟩ := hrun.invariant
    (I := fun s => s.Accounts ∧ s.scrollbackAnnounced = false ∧
      s.scrollbackBudget = SCROLLBACK_BUDGET_PROVISIONAL)
    ⟨TerminalState.accounts_new rows cols, rfl, rfl⟩ (by
      rintro s op s' ⟨hacc, hun, hbudget⟩ hstep
      obtain ⟨hun', hbudget', -⟩ := TerminalState.step_frame hacc hstep
      exact ⟨hacc.of_run (.cons hstep (.nil s')), hun'.trans hun, hbudget'.trans hbudget⟩)
  exact hbudget ▸ hacc.scrollback_le hun

/-- **Scrollback markers round trip.** In every run that loses no rows inside an operation, and
while the count of evictions is a `u64`, the pending rows are numbered without a gap up to the
count; and the marker from any base, cut into chunks in any way and fed to a client between
sequences, leaves it with the server's count, the index of the first row carried, and the
pending rows the base had not been sent. -/
theorem marker_round_trip {Screen : Type u} (em : Emulator Screen) {rows cols : ℕ}
    {ops : List TerminalOp} {s : TerminalState Screen}
    (hrun : Run (Meeting (TerminalState.NoLoss em) (Succeeds (TerminalState.step em)))
      (.new em rows cols) ops s) (htotal : s.evictedTotal < 2 ^ 64) :
    Aligned s.pendingScrollback.items s.evictedTotal ∧
    ∀ base b, s.base base = some b → ∀ (c : ScrollbackState) (chunks : List (List UInt8)),
      c.parser = .ground →
      chunks.flatten = scrollbackMarker (s.rowsFrom b.evictedTotal) s.evictedTotal →
      (chunks.foldl ScrollbackState.feed c).evicted = s.evictedTotal ∧
      (chunks.foldl ScrollbackState.feed c).rowsFirst =
        markerFirst (s.rowsFrom b.evictedTotal) s.evictedTotal ∧
      (chunks.foldl ScrollbackState.feed c).rows =
        (s.pendingScrollback.items.filter fun row => decide (b.evictedTotal ≤ row.index)).map
          carriedRow := by
  have hcollected := TerminalState.collected_of_run hrun
  refine ⟨hcollected.aligned, fun base b _ c chunks hc hchunks => ?_⟩
  have hsuf := s.rowsFrom_suffix b.evictedTotal
  have hcost : ((s.rowsFrom b.evictedTotal).map PendingRow.cost).sum ≤
      s.pendingScrollback.total :=
    CountedQueue.Balanced.total_le_of_suffix
      (p := ⟨s.rowsFrom b.evictedTotal, ((s.rowsFrom b.evictedTotal).map PendingRow.cost).sum⟩)
      hcollected.accounts.scrollback rfl hsuf
  have hbudget := TerminalState.total_le_of_run hrun.of_meeting
  have hfit : 2 * ((s.rowsFrom b.evictedTotal).map PendingRow.cost).sum ≤ MAX_PAYLOAD := by
    have : 2 * SCROLLBACK_BUDGET_PROVISIONAL ≤ MAX_PAYLOAD := by decide
    omega
  obtain ⟨hev, hfirst, hrows, -⟩ :=
    feed_scrollbackMarker hc (hcollected.aligned.of_suffix hsuf) htotal hfit
  rw [ScrollbackState.foldl_feed, hchunks]
  exact ⟨hev, hfirst, by rw [hrows, hcollected.aligned.rowsFrom_eq_filter]⟩

end

open scoped Base64.Standard

/-- Two lines that scroll off a screen of one row, in two chunks, and a third still on it. -/
def threeLineOps : List TerminalOp :=
  [.process [0x61, 0x0d, 0x0a, 0x62], .process [0x0d, 0x0a, 0x63]]

instance (s : TerminalState LineScreen) : ∀ op, Decidable (s.NoLoss lineEmulator op)
  | .process bytes => inferInstanceAs (Decidable (
    (s.feed lineEmulator bytes).pendingScrollback.items = [] ∨
      (GridOp.ris ∉ Parser.gridOps lineEmulator s.parser.screen bytes ∧
        (Parser.gridOps lineEmulator s.parser.screen bytes).length ≤ EVICTED_CAP)))
  | .resize rows cols => inferInstanceAs (Decidable (s.pendingScrollback.items = [] ∨
    (lineEmulator.setSizeReflow s.parser.screen rows cols).2.length ≤ EVICTED_CAP))
  | .snapshotForState _ | .acknowledge _ | .addQuery _ => .isTrue trivial

theorem marker_round_trip_threeLineOps :
    ∃ s, Run (Succeeds (TerminalState.step lineEmulator)) (.new lineEmulator 1 80)
        threeLineOps s ∧
      (ScrollbackState.new.feed
        (scrollbackMarker (s.rowsFrom s.baseEvictedTotal) s.evictedTotal)).evicted = 2 ∧
      (ScrollbackState.new.feed
        (scrollbackMarker (s.rowsFrom s.baseEvictedTotal) s.evictedTotal)).rows =
        (s.pendingScrollback.items.filter
          fun row => decide (s.baseEvictedTotal ≤ row.index)).map carriedRow := by
  obtain ⟨s, hrun, htotal⟩ := exists_run_of_guarded threeLineOps
    (C := fun s op => TerminalState.NoLoss lineEmulator s op)
    (f := TerminalState.step lineEmulator) (s := .new lineEmulator 1 80)
    (P := fun s => s.evictedTotal = 2) (by decide +kernel)
  have hlt : s.evictedTotal < 2 ^ 64 := by rw [htotal]; decide
  have hround := (marker_round_trip lineEmulator hrun hlt).2 none _ rfl
  obtain ⟨hev, -, hrows⟩ := hround .new
    [scrollbackMarker (s.rowsFrom s.baseEvictedTotal) s.evictedTotal] rfl
    (by rw [flatten_cons, flatten_nil, append_nil])
  rw [foldl_cons, foldl_nil] at hev hrows
  exact ⟨s, hrun.of_meeting, hev.trans htotal, hrows⟩

/-- A line that scrolls off, then `ESC c`. -/
def risOps : List TerminalOp := [.process [0x61, 0x0d, 0x0a], .process [0x1b, 0x63]]

/-- `ESC c` starts the count over under a pending row, and the client counts one row the
server does not. -/
theorem marker_lost_after_ris :
    ∃ s, Run (Meeting (fun _ _ => True) (Succeeds (TerminalState.step lineEmulator)))
        (.new lineEmulator 1 80) risOps s ∧
      s.evictedTotal = 0 ∧ s.pendingScrollback.items.map PendingRow.index = [0] ∧
      (ScrollbackState.new.feed (scrollbackMarker (s.rowsFrom 0) s.evictedTotal)).evicted = 1 :=
  exists_run_of_guarded risOps (by decide +kernel)
end Zetta.Zosh
