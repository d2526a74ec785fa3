import Designate.DnsService

/-!
# What is handed to the application

As long as the length of each query comes in one piece, a connection hands on the complete
queries of its stream, however else it is cut. A length that is torn apart ends the connection,
and a query that the client does not complete before it closes is handed on as far as it got.
-/

namespace Designate

namespace DnsService

open Framing

variable {σ : Type} {P : Parties σ} {c : Conn σ}

/-- The complete messages of a stream. -/
def messages (stream : List UInt8) : List (List UInt8) :=
  (frames lengthOf stream).map Frame.payload

/-- The length that two bytes tell as they come in. -/
def sizeOf (a b : Incoming) : Nat := lengthOf a.byte b.byte

/-- The complete messages of what comes in. -/
def queries (incoming : List Incoming) : List (List UInt8) :=
  (frames sizeOf incoming).map fun frame => frame.payload.map Incoming.byte

theorem messages_map (incoming : List Incoming) :
    messages (incoming.map Incoming.byte) = queries incoming := by
  unfold messages queries
  rw [frames_map (fun _ _ => rfl : ∀ a b : Incoming, lengthOf a.byte b.byte = sizeOf a b),
    List.map_map]
  rfl

/-- What is left over has a whole length, which came in one piece. -/
def begun : List Incoming → Bool
  | a :: _ :: _ => !a.last
  | _ => false

/--
No length of a complete message is torn apart. Every message but the last is answered without
an exception. And the client does not close inside a further message of which the length has
come in one piece, unless the connection has ended before.
-/
structure Orderly (P : Parties σ) (c : Conn σ) : Prop where
  whole : ∀ frame ∈ frames sizeOf c.incoming, frame.first.last = false
  answered : (Exec.forEach (answer P) (queries c.incoming).dropLast c.rest).1 = .ok ()
  complete : c.ending = none → begun (tail sizeOf c.incoming) = true →
    (Exec.forEach (answer P) (queries c.incoming) c.rest).1 ≠ .ok ()

/-! ## Receiving -/

/-- Some of what is there is received, and no more than was asked for. By induction on that. -/
theorem arrived_run (size : Nat) : ∀ incoming : List Incoming, 0 < size → incoming ≠ [] →
    ∃ k, 0 < k ∧ k ≤ size ∧ k ≤ incoming.length ∧
      arrived size incoming = ((incoming.take k).map Incoming.byte, incoming.drop k) := by
  induction size with
  | zero => intro incoming hpos; omega
  | succ size ih =>
    intro incoming _ hne
    obtain ⟨b, incoming, rfl⟩ := List.exists_cons_of_ne_nil hne
    unfold arrived
    by_cases hlast : b.last = true
    · rw [if_pos hlast]
      exact ⟨1, by omega, by omega, by simp, by simp⟩
    · rw [if_neg hlast]
      by_cases hmore : 0 < size ∧ incoming ≠ []
      · obtain ⟨k, hpos, hsize, hlength, hrun⟩ := ih incoming hmore.1 hmore.2
        rw [hrun]
        exact ⟨k + 1, by omega, by omega, by simpa using hlength, by simp⟩
      · refine ⟨1, by omega, by omega, by simp, ?_⟩
        rcases Nat.eq_zero_or_pos size with rfl | hpos
        · simp [arrived]
        · obtain rfl : incoming = [] := by
            by_contra hne
            exact hmore ⟨hpos, hne⟩
          cases size <;> simp [arrived]

theorem recv_run {size : Nat} (hsize : 0 < size) (hne : c.incoming ≠ []) :
    ∃ k, 0 < k ∧ k ≤ size ∧ k ≤ c.incoming.length ∧
      recv size c = (.ok ((c.incoming.take k).map Incoming.byte),
        { c with incoming := c.incoming.drop k }) := by
  obtain ⟨k, hpos, hle, hlength, hrun⟩ := arrived_run size c.incoming hsize hne
  refine ⟨k, hpos, hle, hlength, ?_⟩
  unfold recv
  split
  · next h _ => exact absurd h hne
  · next h _ => exact absurd h hne
  · rw [hrun]

/-- Once nothing is left, the client has closed or the socket raises. -/
theorem recv_nil (size : Nat) (hnil : c.incoming = []) :
    recv size c = (c.ending.elim (.ok []) .error, c) := by
  unfold recv
  rw [hnil]
  cases c.ending <;> rfl

theorem recvQuery_step {rounds missing : Nat} {data : List UInt8} {c' : Conn σ}
    (h : recv (min (missing + 1) tcpRecvMaxSize) c = (.ok data, c')) :
    recvQuery (rounds + 1) (missing + 1) c =
      (if data = [] then pure []
      else do
        let more ← recvQuery rounds (missing + 1 - data.length)
        pure (data ++ more) : Exec (Conn σ) Fault (List UInt8)) c' :=
  Exec.bind_ok h

/-- What is there of a query is received, in however many pieces. By induction on the rounds. -/
theorem recvQuery_run {rounds : Nat} : ∀ {missing : Nat} {c : Conn σ}, missing ≤ rounds →
    (missing ≤ c.incoming.length → recvQuery rounds missing c =
      (.ok ((c.incoming.take missing).map Incoming.byte),
        { c with incoming := c.incoming.drop missing })) ∧
    (c.incoming.length < missing → recvQuery rounds missing c =
      (c.ending.elim (.ok (c.incoming.map Incoming.byte)) .error, { c with incoming := [] })) := by
  induction rounds with
  | zero =>
    intro missing c hle
    obtain rfl : missing = 0 := by omega
    exact ⟨fun _ => rfl, fun h => absurd h (by omega)⟩
  | succ rounds ih =>
    intro missing c hle
    cases missing with
    | zero => exact ⟨fun _ => rfl, fun h => absurd h (by omega)⟩
    | succ missing =>
      by_cases hnil : c.incoming = []
      · refine ⟨fun h => by simp [hnil] at h, fun _ => ?_⟩
        have hrecv := recv_nil (min (missing + 1) tcpRecvMaxSize) hnil
        have hsame : { c with incoming := [] } = c := by rw [← hnil]
        rw [hsame, hnil]
        cases hending : c.ending with
        | none =>
          rw [hending] at hrecv
          rw [recvQuery_step hrecv]
          rfl
        | some e =>
          rw [hending] at hrecv
          exact Exec.bind_error hrecv
      · obtain ⟨k, hpos, hsize, hlength, hrecv⟩ := recv_run
          (show 0 < min (missing + 1) tcpRecvMaxSize by unfold tcpRecvMaxSize; omega) hnil
        have hdata : (c.incoming.take k).map Incoming.byte ≠ [] := by
          intro h
          have := congrArg List.length h
          simp only [List.length_map, List.length_take, List.length_nil] at this
          omega
        have hgot : ((c.incoming.take k).map Incoming.byte).length = k := by simp [hlength]
        have hmin := Nat.min_le_left (missing + 1) tcpRecvMaxSize
        rw [recvQuery_step hrecv, if_neg hdata, hgot]
        -- one piece of the query, and then the rest of it
        obtain ⟨hwhole, hshort⟩ := ih (c := { c with incoming := c.incoming.drop k })
          (show missing + 1 - k ≤ rounds by omega)
        refine ⟨fun h => ?_, fun h => ?_⟩
        · rw [Exec.bind_ok (hwhole (by simp only [List.length_drop]; omega)), List.drop_drop,
            Nat.add_sub_cancel' (by omega), Exec.pure_apply, ← List.map_append]
          have htake : c.incoming.take k ++ (c.incoming.drop k).take (missing + 1 - k) =
              c.incoming.take (missing + 1) := by
            rw [← List.take_add, Nat.add_sub_cancel' (by omega)]
          rw [htake]
        · have hrest := hshort (by simp only [List.length_drop]; omega)
          cases hending : c.ending with
          | none =>
            rw [hending] at hrest
            rw [Exec.bind_ok hrest, Exec.pure_apply, ← List.map_append, List.take_append_drop]
            rfl
          | some e =>
            rw [hending] at hrest
            rw [Exec.bind_error hrest]
            rfl

/-! ## Handing on -/

/-- What has been handed on stays so. -/
theorem keeps_handed (P : Parties σ) (handed : List (List UInt8)) (rounds : Nat) :
    Exec.Keeps (fun c : Conn σ => handed <+: c.handed) (handleQueries P rounds) := by
  have hrecv : ∀ size, Exec.Keeps (fun c : Conn σ => handed <+: c.handed) (recv size) := by
    intro size c h
    unfold recv
    split <;> exact h
  -- reading never touches what was handed on, however many pieces it takes
  have hquery : ∀ rounds missing,
      Exec.Keeps (fun c : Conn σ => handed <+: c.handed) (recvQuery rounds missing) := by
    intro rounds
    induction rounds with
    | zero => exact fun _ => Exec.Keeps.pure _
    | succ rounds ih =>
      intro missing
      cases missing with
      | zero => exact Exec.Keeps.pure _
      | succ missing =>
        refine Exec.Keeps.bind (hrecv _) fun data => Exec.Keeps.ite (fun _ => Exec.Keeps.pure _) ?_
        exact fun _ => Exec.Keeps.bind (ih _) fun _ => Exec.Keeps.pure _
  induction rounds with
  | zero => exact Exec.Keeps.raise _
  | succ rounds ih =>
    refine Exec.Keeps.bind (hrecv 2) fun _ => Exec.Keeps.bind (Exec.Keeps.read _) fun _ => ?_
    refine Exec.Keeps.bind (hquery _ _) fun query => Exec.Keeps.bind ?_ fun _ => ih
    -- the one step that hands on appends
    intro c h
    exact List.IsPrefix.trans h (List.prefix_append _ _)

/-- A length that is not all there, or that is torn apart, ends the connection. -/
theorem handleQueries_torn {rounds : Nat} (h : begun c.incoming = false) :
    (handleQueries P (rounds + 1) c).2.handed = c.handed := by
  -- whatever comes in at first is no length, and the exception ends the loop
  have hshort : ∀ data c', recv 2 c = (.ok data, c') → unpack data = .error .structError →
      (handleQueries P (rounds + 1) c).2.handed = c'.handed := by
    intro data c' hrecv hunpack
    unfold handleQueries
    rw [Exec.bind_ok hrecv, Exec.bind_error (show Exec.read _ c' = (.error .structError, c') from
      congrArg (fun result => (result, c')) hunpack)]
  obtain ⟨incoming, ending, handed, rest⟩ := c
  match incoming, ending with
  | [], none => exact hshort [] _ rfl rfl
  | [], some e =>
    unfold handleQueries
    rw [Exec.bind_error (show recv 2 _ = (.error e, _) from rfl)]
  | [a], ending =>
    refine hshort [a.byte] ⟨[], ending, handed, rest⟩ ?_ rfl
    simp [recv, arrived]
  | a :: b :: incoming, ending =>
    have hlast : a.last = true := by simpa [begun] using h
    refine hshort [a.byte] ⟨b :: incoming, ending, handed, rest⟩ ?_ rfl
    simp [recv, arrived, hlast]

/-- A length that comes in one piece. -/
theorem recv_length {a b : Incoming} {incoming : List Incoming}
    (h : c.incoming = a :: b :: incoming) (hlast : a.last = false) :
    recv 2 c = (.ok [a.byte, b.byte], { c with incoming }) := by
  unfold recv
  rw [h]
  cases hb : b.last <;> simp [arrived, hlast, hb]

/-- A query is handed on as far as it has come in. -/
theorem handleQueries_begun {rounds : Nat} {a b : Incoming} {incoming : List Incoming}
    (h : c.incoming = a :: b :: incoming) (hlast : a.last = false) :
    handleQueries P (rounds + 1) c = (do
      let query ← recvQuery (sizeOf a b) (sizeOf a b)
      hand P query
      handleQueries P rounds : Exec (Conn σ) Fault Unit) { c with incoming } := by
  rw [handleQueries, Exec.bind_ok (recv_length h hlast)]
  rfl

/-- What a stream with a whole length at its beginning, and no complete message, comes to. -/
theorem handleQueries_begun_short {rounds : Nat} {a b : Incoming} {incoming : List Incoming}
    (h : c.incoming = a :: b :: incoming) (hlast : a.last = false)
    (hshort : incoming.length < sizeOf a b) :
    (handleQueries P (rounds + 1) c).2.handed = c.handed ↔ c.ending ≠ none := by
  have hquery := (recvQuery_run (c := { c with incoming }) (Nat.le_refl (sizeOf a b))).2 hshort
  rw [handleQueries_begun h hlast]
  cases hending : c.ending with
  | some e =>
    rw [hending] at hquery
    rw [Exec.bind_error hquery]
    exact ⟨fun _ => by simp, fun _ => rfl⟩
  | none =>
    -- the client has closed: what there is of the query is handed on
    rw [hending] at hquery
    rw [Exec.bind_ok hquery]
    refine ⟨fun hsame => ?_, fun h => absurd rfl h⟩
    have hgrown := Exec.Keeps.after
      (I := fun c' : Conn σ => c.handed ++ [incoming.map Incoming.byte] <+: c'.handed)
      (m := hand P (incoming.map Incoming.byte)) (f := fun _ => handleQueries P rounds)
      (s := ⟨[], c.ending, c.handed, c.rest⟩) (List.prefix_refl _) fun _ => keeps_handed P _ rounds
    rw [hending] at hgrown
    have hlength := Nat.le_trans hgrown.length_le (Nat.le_of_eq (congrArg List.length hsame))
    simp only [List.length_append, List.length_singleton] at hlength
    omega

/-- A complete query is handed on, and what follows depends on how it is answered. -/
theorem handleQueries_whole {rounds : Nat} {frame : Frame Incoming} {rest : List Incoming}
    (h : next sizeOf c.incoming = some (frame, rest)) (hlast : frame.first.last = false) :
    handleQueries P (rounds + 1) c = (do
      hand P (frame.payload.map Incoming.byte)
      handleQueries P rounds : Exec (Conn σ) Fault Unit) { c with incoming := rest } := by
  obtain ⟨incoming, ending, handed, σ₀⟩ := c
  match incoming with
  | [] => cases h
  | [_] => cases h
  | a :: b :: incoming =>
    have hle : sizeOf a b ≤ incoming.length := by
      by_contra hle
      simp [next, hle] at h
    simp only [next, hle, if_true, Option.some.injEq, Prod.mk.injEq] at h
    obtain ⟨rfl, rfl⟩ := h
    rw [handleQueries_begun rfl hlast, Exec.bind_ok
      ((recvQuery_run (c := ⟨incoming, ending, handed, σ₀⟩) (Nat.le_refl (sizeOf a b))).1 hle)]

/-! ## The whole connection -/

theorem queries_of_next {l rest : List Incoming} {frame : Frame Incoming}
    (h : next sizeOf l = some (frame, rest)) :
    queries l = frame.payload.map Incoming.byte :: queries rest := by
  unfold queries
  rw [frames_of_next h, List.map_cons]

theorem queries_of_none {l : List Incoming} (h : next sizeOf l = none) : queries l = [] := by
  unfold queries
  rw [frames_of_none h, List.map_nil]

/-- Without a complete message, all that matters is that none is handed on incomplete. -/
theorem handled_of_none {rounds : Nat} (h : next sizeOf c.incoming = none) :
    (handleQueries P (rounds + 1) c).2.handed = c.handed ++ queries c.incoming ↔ Orderly P c := by
  -- without a complete message, order only asks that none is begun on a stream that ends
  have hcond : Orderly P c ↔ ¬ (c.ending = none ∧ begun c.incoming = true) := by
    constructor
    · intro horderly hbad
      refine horderly.complete hbad.1 (by rw [tail_of_none h]; exact hbad.2) ?_
      rw [queries_of_none h]
      rfl
    · intro hgood
      refine ⟨?_, ?_, ?_⟩
      · rw [frames_of_none h]
        simp
      · rw [queries_of_none h]
        rfl
      · intro hending hbegun
        rw [tail_of_none h] at hbegun
        exact absurd ⟨hending, hbegun⟩ hgood
  rw [queries_of_none h, List.append_nil, hcond]
  cases hbegun : begun c.incoming with
  | false =>
    rw [handleQueries_torn hbegun]
    simp
  | true =>
    -- at least the two bytes of the length have come
    match hincoming : c.incoming with
    | [] => simp [hincoming, begun] at hbegun
    | [_] => simp [hincoming, begun] at hbegun
    | a :: b :: incoming =>
      have hlast : a.last = false := by simpa [hincoming, begun] using hbegun
      have hshort : incoming.length < sizeOf a b := by
        by_contra hle
        rw [hincoming] at h
        simp [next, Nat.not_lt.mp hle] at h
      rw [handleQueries_begun_short hincoming hlast hshort]
      simp

section Complete

variable {frame : Frame Incoming} {rest : List Incoming} {σ₁ : σ}

/-- A complete message that is answered changes nothing about the order of those behind it. -/
theorem orderly_of_answered (h : next sizeOf c.incoming = some (frame, rest))
    (hlast : frame.first.last = false)
    (hanswer : answer P (frame.payload.map Incoming.byte) c.rest = (.ok (), σ₁))
    (handed : List (List UInt8)) :
    Orderly P c ↔ Orderly P ⟨rest, c.ending, handed, σ₁⟩ := by
  have hall : Exec.forEach (answer P) (queries c.incoming) c.rest =
      Exec.forEach (answer P) (queries rest) σ₁ := by
    rw [queries_of_next h]
    exact Exec.bind_ok hanswer
  -- the last query is exempt, so the head counts only if it is not the last
  have hbutLast : (Exec.forEach (answer P) (queries c.incoming).dropLast c.rest).1 =
      (Exec.forEach (answer P) (queries rest).dropLast σ₁).1 := by
    rw [queries_of_next h]
    cases hrest : queries rest with
    | nil => rfl
    | cons query later =>
      rw [List.dropLast_cons_cons]
      exact congrArg Prod.fst (Exec.bind_ok hanswer)
  constructor
  · intro horderly
    refine ⟨fun f hf => horderly.whole f ?_, hbutLast ▸ horderly.answered, ?_⟩
    · rw [frames_of_next h]
      exact List.mem_cons_of_mem _ hf
    · intro hending hbegun
      rw [← hall]
      exact horderly.complete hending (by rw [tail_of_next h]; exact hbegun)
  · intro horderly
    refine ⟨?_, hbutLast.trans horderly.answered, ?_⟩
    · intro f hf
      rw [frames_of_next h] at hf
      rcases List.mem_cons.mp hf with rfl | hf
      · exact hlast
      · exact horderly.whole f hf
    · intro hending hbegun
      rw [hall]
      exact horderly.complete hending (by rw [← tail_of_next h]; exact hbegun)

/-- With a message that is not answered the connection ends, so that it has to be the last. -/
theorem orderly_of_failed (h : next sizeOf c.incoming = some (frame, rest))
    (hlast : frame.first.last = false) {e : Fault}
    (hanswer : answer P (frame.payload.map Incoming.byte) c.rest = (.error e, σ₁)) :
    Orderly P c ↔ queries rest = [] := by
  constructor
  · intro horderly
    have hanswered := horderly.answered
    rw [queries_of_next h] at hanswered
    cases hrest : queries rest with
    | nil => rfl
    | cons query later =>
      rw [hrest, List.dropLast_cons_cons] at hanswered
      -- the message behind it would not be answered before the connection ends
      have hstops : Exec.forEach (answer P)
          (frame.payload.map Incoming.byte :: (query :: later).dropLast) c.rest =
            (.error e, σ₁) := Exec.bind_error hanswer
      rw [hstops] at hanswered
      cases hanswered
  · intro hnone
    refine ⟨?_, ?_, ?_⟩
    · intro f hf
      rw [frames_of_next h, List.map_eq_nil_iff.mp hnone] at hf
      exact List.mem_singleton.mp hf ▸ hlast
    · rw [queries_of_next h, hnone]
      rfl
    · intro _ _ hok
      have hstops : Exec.forEach (answer P) [frame.payload.map Incoming.byte] c.rest =
          (.error e, σ₁) := Exec.bind_error hanswer
      rw [queries_of_next h, hnone, hstops] at hok
      cases hok

end Complete

/-- What is handed on by a connection. By induction along the messages of its stream. -/
theorem handleQueries_handed (P : Parties σ) (incoming : List Incoming) :
    ∀ {rounds : Nat} {c : Conn σ}, c.incoming = incoming → incoming.length < rounds →
      ((handleQueries P rounds c).2.handed = c.handed ++ queries c.incoming ↔ Orderly P c) := by
  induction incoming using frames_induction sizeOf with
  | none incoming h =>
    intro rounds c hincoming hrounds
    obtain ⟨rounds, rfl⟩ : ∃ n, rounds = n + 1 := ⟨rounds - 1, by omega⟩
    exact handled_of_none (hincoming ▸ h)
  | next incoming frame rest h ih =>
    intro rounds c hincoming hrounds
    obtain ⟨rounds, rfl⟩ : ∃ n, rounds = n + 1 := ⟨rounds - 1, by omega⟩
    subst hincoming
    have hfewer := length_of_next sizeOf h
    cases hlast : frame.first.last with
    | true =>
      -- the length is torn apart, and the message is lost
      have hbegun : begun c.incoming = false := by
        rw [eq_of_next sizeOf h]
        simp [begun, hlast]
      rw [handleQueries_torn hbegun, queries_of_next h]
      refine ⟨fun hsame => absurd hsame (by simp), fun horderly => ?_⟩
      have := horderly.whole frame (by rw [frames_of_next h]; exact List.mem_cons_self)
      exact absurd this (by simp [hlast])
    | false =>
      rw [handleQueries_whole h hlast, queries_of_next h]
      cases hanswer : answer P (frame.payload.map Incoming.byte) c.rest with
      | mk result σ₁ =>
        cases result with
        | error e =>
          have hhand : hand P (frame.payload.map Incoming.byte) { c with incoming := rest } =
              (.error e, ⟨rest, c.ending, c.handed ++ [frame.payload.map Incoming.byte], σ₁⟩) := by
            simp [hand, hanswer]
          rw [Exec.bind_error hhand, orderly_of_failed h hlast hanswer]
          simp
        | ok u =>
          have hhand : hand P (frame.payload.map Incoming.byte) { c with incoming := rest } =
              (.ok (), ⟨rest, c.ending, c.handed ++ [frame.payload.map Incoming.byte], σ₁⟩) := by
            simp [hand, hanswer]
          have hlater := ih
            (c := ⟨rest, c.ending, c.handed ++ [frame.payload.map Incoming.byte], σ₁⟩) rfl
            (show rest.length < rounds by omega)
          rw [Exec.bind_ok hhand, orderly_of_answered h hlast hanswer, ← hlater,
            List.append_assoc, List.singleton_append]

/--
**A connection hands on exactly the complete messages of its stream when it is orderly**, and
only then.
-/
theorem handed_iff (P : Parties σ) (c : Conn σ) :
    (dnsHandleTcpConn P c).handed = c.handed ++ messages (c.incoming.map Incoming.byte) ↔
      Orderly P c := by
  rw [messages_map]
  exact handleQueries_handed P c.incoming rfl (Nat.lt_succ_self _)

/-- An application that answers nothing. -/
def silent : Parties Unit where
  application _ := pure ([], none)
  sendall _ := pure ()

/-- A connection with one complete message, of which the length comes in two segments. -/
def tornConn : Conn Unit := ⟨[⟨0, true⟩, ⟨1, false⟩, ⟨65, true⟩], none, [], ()⟩

/-- A connection that is closed inside its first message. -/
def truncatedConn : Conn Unit := ⟨[⟨0, false⟩, ⟨2, true⟩, ⟨65, true⟩], none, [], ()⟩

/-- A complete message is not handed on, and a truncated one is. -/
theorem torn_and_truncated :
    ((dnsHandleTcpConn silent tornConn).handed = [] ∧
      messages (tornConn.incoming.map Incoming.byte) = [[65]]) ∧
    (dnsHandleTcpConn silent truncatedConn).handed = [[65]] ∧
      messages (truncatedConn.incoming.map Incoming.byte) = [] := by
  have hone : next lengthOf [0, 1, 65] = some (⟨0, 1, [65]⟩, []) := by decide
  have hnone : next lengthOf [0, 2, 65] = none := by decide
  refine ⟨⟨rfl, ?_⟩, rfl, ?_⟩
  · show (frames lengthOf [0, 1, 65]).map Frame.payload = [[65]]
    rw [frames_of_next hone, frames_of_none rfl]
    rfl
  · show (frames lengthOf [0, 2, 65]).map Frame.payload = []
    rw [frames_of_none hnone]
    rfl

end DnsService

end Designate
