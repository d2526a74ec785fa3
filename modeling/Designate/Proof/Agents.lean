import Designate.Agent.Handler

/-!
# What an agent has done when a backend believes it

Everything a handler does is for a query that somebody sent under an address that is
allowed, and a zone it hands to its driver was served by one of its masters while it was at
work. An answer without an error is sent only when what was asked for is so. A call that
takes an answer for its own compares it with the query it has sent.
-/

namespace Designate

namespace Agent

variable {ζ : Type} {opts : Options} {s : State ζ} {packet : Packet} {arrived now : Nat}

/-! ## What is asked for, and what is done for it -/

/-- A query that an agent takes up as this verb. -/
structure Packet.Asks (opts : Options) (packet : Packet) (v : Verb) : Prop where
  query : packet.message.qr = false
  allowed : opts.allowed packet.addr.host = true
  first : ∃ q, packet.message.question.head? = some q ∧ verb packet.message.opcode q = some v

/-- A message that answers a query, as far as the query is repeated in it. -/
structure Message.Copies (query response : Message) : Prop where
  qr : response.qr = true
  id : response.id = query.id
  opcode : response.opcode = query.opcode
  question : response.question = query.question

/-- A zone that one of the masters served while a handler was at work. -/
structure Served (opts : Options) (publications : List (Publication ζ)) (zoneName : String)
    (arrived now : Nat) (master : Addr) (transferred : Nat) (zone : ζ) : Prop where
  known : master ∈ opts.masters
  after : arrived < transferred
  before : transferred < now
  content : servedAt publications transferred zoneName master = some zone

/-- What a handler may have done by now. -/
def What.Grounded (opts : Options) (publications : List (Publication ζ)) (packet : Packet)
    (arrived now : Nat) : What ζ → Prop
  | .found => packet.Asks opts .CREATE
  | .missing | .deleted _ => packet.Asks opts .DELETE
  | .applied v master transferred zone _ => v ≠ .DELETE ∧ packet.Asks opts v ∧
      Served opts publications packet.zoneName arrived now master transferred zone

/-- Where a handler may be by now. -/
def Stage.Grounded (opts : Options) (publications : List (Publication ζ)) (packet : Packet)
    (arrived now : Nat) : Stage ζ → Prop
  | .received | .done => True
  | .transferring v response =>
      v ≠ .DELETE ∧ packet.Asks opts v ∧ packet.message.Copies response
  | .applying v response master transferred zone =>
      (v ≠ .DELETE ∧ packet.Asks opts v ∧ packet.message.Copies response) ∧
      Served opts publications packet.zoneName arrived now master transferred zone
  | .deleting response => packet.Asks opts .DELETE ∧ packet.message.Copies response

/-- What was asked for by a verb is so. -/
def What.Succeeds (v : Verb) : What ζ → Prop
  | .found => v = .CREATE
  | .missing => v = .DELETE
  | .applied v' _ _ _ ok => v' = v ∧ ok = true
  | .deleted ok => v = .DELETE ∧ ok = true

/-- An answer without an error that a backend could wait for. -/
structure Message.Success (m : Message) : Prop where
  aa : m.aa = true
  rcode : m.rcode = NOERROR
  opcode : m.opcode ≠ NOTIFY

/-- A move of a handler. -/
structure Move.Grounded (opts : Options) (publications : List (Publication ζ)) (packet : Packet)
    (arrived now : Nat) (m : Move ζ) : Prop where
  stage : m.stage.Grounded opts publications packet arrived (now + 1)
  what : ∀ w ∈ m.what, w.Grounded opts publications packet arrived now
  copies : ∀ r ∈ m.answer, packet.message.Copies r
  succeeds : ∀ r ∈ m.answer, r.Success → ∃ w ∈ m.what, ∃ v, packet.Asks opts v ∧ w.Succeeds v

theorem copies_makeResponse {query response : Message} (h : makeResponse query = some response) :
    query.Copies response ∧ query.qr = false := by
  unfold makeResponse at h
  split at h
  · cases h
  · next hqr =>
    obtain rfl := Option.some.inj h
    exact ⟨⟨rfl, rfl, rfl, rfl⟩, by simpa using hqr⟩

section

variable {publications : List (Publication ζ)} {response : Message}

/-- A handler that ends with an error. -/
theorem grounded_error (hc : packet.message.Copies response) {rcode : Nat}
    (hne : rcode ≠ NOERROR) :
    ({ answer := some { response with rcode } } : Move ζ).Grounded opts publications packet
      arrived now where
  stage := trivial
  what _ h := absurd h (Option.not_mem_none _)
  copies r hr := by
    obtain rfl := Option.mem_some.mp hr
    exact ⟨hc.qr, hc.id, hc.opcode, hc.question⟩
  succeeds r hr hs := by
    obtain rfl := Option.mem_some.mp hr
    exact absurd hs.rcode hne

/-- A handler that ends with an authoritative answer, and what it has done. -/
theorem grounded_done (hc : packet.message.Copies response) {w : What ζ} {v : Verb}
    (hw : w.Grounded opts publications packet arrived now) (hv : packet.Asks opts v)
    (hs : w.Succeeds v) :
    ({ what := some w, answer := some { response with aa := true } } : Move ζ).Grounded opts
      publications packet arrived now where
  stage := trivial
  what w' h := Option.mem_some.mp h ▸ hw
  copies r hr := by
    obtain rfl := Option.mem_some.mp hr
    exact ⟨hc.qr, hc.id, hc.opcode, hc.question⟩
  succeeds _ _ _ := ⟨w, rfl, v, hv, hs⟩

/-- A handler that goes on. -/
theorem grounded_stage {stage : Stage ζ}
    (h : stage.Grounded opts publications packet arrived (now + 1)) :
    ({ stage } : Move ζ).Grounded opts publications packet arrived now where
  stage := h
  what _ h := absurd h (Option.not_mem_none _)
  copies _ h := absurd h (Option.not_mem_none _)
  succeeds _ h := absurd h (Option.not_mem_none _)

theorem handle_grounded (serial : Option Nat) :
    (handle opts packet serial : Move ζ).Grounded opts publications packet arrived now := by
  unfold handle
  split
  · next question rest response hquestion hresponse =>
    obtain ⟨hc, hqr⟩ := copies_makeResponse hresponse
    have hrefused : REFUSED ≠ NOERROR := by decide
    cases hverb : verb packet.message.opcode question with
    | none => exact grounded_error hc hrefused
    | some v =>
      dsimp only
      split
      · next hallowed =>
        -- from here on the packet is a query for the verb, from a master that is allowed
        have hasks : packet.Asks opts v := ⟨hqr, hallowed, question, by rw [hquestion]; rfl, hverb⟩
        cases v with
        | CREATE =>
          cases serial with
          | none => exact grounded_stage ⟨Verb.noConfusion, hasks, hc⟩
          | some n => exact grounded_done hc hasks hasks rfl
        | NOTIFY =>
          cases serial with
          | none => exact grounded_error hc hrefused
          | some n => exact grounded_stage ⟨Verb.noConfusion, hasks, hc⟩
        | DELETE =>
          cases serial with
          | none => exact grounded_done hc hasks hasks rfl
          | some n => exact grounded_stage ⟨hasks, hc.qr, hc.id, hc.opcode, hc.question⟩
      · exact grounded_error hc hrefused
  · exact grounded_stage trivial

theorem doAxfr_eq_some {served : Addr → Option ζ} {servers : List (Addr × Bool)} {master : Addr}
    {zone : ζ} (h : doAxfr served servers = some (master, zone)) :
    master ∈ servers.map Prod.fst ∧ served master = some zone := by
  induction servers with
  | nil => cases h
  | cons server servers ih =>
    obtain ⟨server, reached⟩ := server
    have hrest : doAxfr served servers = some (master, zone) →
        master ∈ (((server, reached) :: servers).map Prod.fst) ∧ served master = some zone :=
      fun h => ⟨List.mem_cons_of_mem _ (ih h).1, (ih h).2⟩
    unfold doAxfr at h
    split at h
    · split at h
      · next z hz =>
        cases h
        exact ⟨List.mem_cons_self, hz⟩
      · exact hrest h
    · exact hrest h

/-- What a handler does next, from where it may be. -/
theorem turn_grounded {h : Handler ζ} {e : Event ζ} {m : Move ζ} (harrived : h.arrived < s.now)
    (hstage : h.stage.Grounded opts s.publications h.packet h.arrived s.now)
    (hm : s.turn opts h e = some m) :
    m.Grounded opts s.publications h.packet h.arrived s.now := by
  have hservfail : SERVFAIL ≠ NOERROR := by decide
  unfold State.turn at hm
  split at hm
  · -- A NOTIFY is answered by the agent without the handler.
    split at hm
    · next response hresponse =>
      split at hm
      · next hnotify =>
        obtain rfl := Option.some.inj hm
        have hc := (copies_makeResponse hresponse).1
        refine ⟨trivial, fun _ h => absurd h (Option.not_mem_none _), fun r hr => ?_,
          fun r hr hs => ?_⟩
        · obtain rfl := Option.mem_some.mp hr
          exact ⟨hc.qr, hc.id, hc.opcode, hc.question⟩
        · obtain rfl := Option.mem_some.mp hr
          exact absurd (hc.opcode.trans hnotify) hs.opcode
      · cases hm
    · cases hm
  · split at hm
    · obtain rfl := Option.some.inj hm
      exact handle_grounded _
    · cases hm
  · next servers =>
    split at hm
    · next v response heq =>
      rw [heq] at hstage
      obtain ⟨hne, hasks, hc⟩ := hstage
      split at hm
      · next hperm =>
        obtain rfl := Option.some.inj hm
        unfold transfer
        split
        · next master zone hzone =>
          obtain ⟨hmem, hserved⟩ := doAxfr_eq_some hzone
          exact grounded_stage ⟨⟨hne, hasks, hc⟩, (List.isPerm_iff.mp hperm).mem_iff.mp hmem,
            harrived, Nat.lt_succ_self _, hserved⟩
        · exact grounded_error hc hservfail
      · cases hm
    · cases hm
  · next ok =>
    split at hm
    · next v response master transferred zone heq =>
      rw [heq] at hstage
      obtain ⟨⟨hne, hasks, hc⟩, hserved⟩ := hstage
      obtain rfl := Option.some.inj hm
      have hw : (What.applied v master transferred zone ok).Grounded opts s.publications h.packet
          h.arrived s.now := ⟨hne, hasks, hserved⟩
      cases ok with
      | true => exact grounded_done hc hw hasks ⟨rfl, rfl⟩
      | false =>
        exact { grounded_error hc hservfail with
          what := fun _ hw' => Option.mem_some.mp hw' ▸ hw
          succeeds := fun r hr hs => by
            obtain rfl := Option.mem_some.mp hr
            exact absurd hs.rcode hservfail }
    · next response heq =>
      rw [heq] at hstage
      obtain ⟨hasks, hc⟩ := hstage
      obtain rfl := Option.some.inj hm
      cases ok with
      | true =>
        refine ⟨trivial, fun _ hw => Option.mem_some.mp hw ▸ hasks, fun r hr => ?_,
          fun _ _ _ => ⟨_, rfl, .DELETE, hasks, rfl, rfl⟩⟩
        exact Option.mem_some.mp hr ▸ hc
      | false =>
        refine ⟨trivial, fun _ hw => Option.mem_some.mp hw ▸ hasks, fun r hr => ?_,
          fun r hr hs => ?_⟩
        · obtain rfl := Option.mem_some.mp hr
          exact ⟨hc.qr, hc.id, hc.opcode, hc.question⟩
        · obtain rfl := Option.mem_some.mp hr
          exact absurd hs.rcode hservfail
    · cases hm
  · cases hm

end

/-! ## What stays so -/

/-- What a master served before a time does not depend on what is published later. -/
theorem servedAt_append {publications later : List (Publication ζ)} {time : Nat}
    (h : ∀ p ∈ later, time ≤ p.time) (zoneName : String) (master : Addr) :
    servedAt (publications ++ later) time zoneName master =
      servedAt publications time zoneName master := by
  have hnone : later.filter (fun p => decide (p.time < time) && p.master == master &&
      p.zoneName == zoneName) = [] := by
    rw [List.filter_eq_nil_iff]
    intro p hp hkept
    simp only [Bool.and_eq_true, decide_eq_true_eq] at hkept
    have hle := h p hp
    omega
  unfold servedAt
  rw [List.filter_append, hnone, List.append_nil]

/-- A state that comes after another: what was sent, done and published stays. -/
structure Later (s s' : State ζ) : Prop where
  now : s.now ≤ s'.now
  packets : s.packets ⊆ s'.packets
  effects : s.effects ⊆ s'.effects
  publications : ∃ later, s'.publications = s.publications ++ later ∧ ∀ p ∈ later, s.now ≤ p.time

section

variable {s' : State ζ}

theorem Served.later {zoneName : String} {master : Addr} {transferred : Nat} {zone : ζ}
    (h : Served opts s.publications zoneName arrived now master transferred zone)
    (hl : Later s s') (hnow : now ≤ s.now) {now' : Nat} (hnow' : now ≤ now') :
    Served opts s'.publications zoneName arrived now' master transferred zone := by
  obtain ⟨later, heq, htimes⟩ := hl.publications
  refine ⟨h.known, h.after, Nat.lt_of_lt_of_le h.before hnow', ?_⟩
  rw [heq, servedAt_append fun p hp => ?_]
  · exact h.content
  · exact Nat.le_trans (Nat.le_trans (Nat.le_of_lt h.before) hnow) (htimes p hp)

theorem What.Grounded.later {w : What ζ}
    (h : w.Grounded opts s.publications packet arrived now) (hl : Later s s')
    (hnow : now ≤ s.now) : w.Grounded opts s'.publications packet arrived now := by
  cases w with
  | found => exact h
  | missing => exact h
  | deleted ok => exact h
  | applied v master transferred zone ok =>
    exact ⟨h.1, h.2.1, h.2.2.later hl hnow (Nat.le_refl _)⟩

theorem Stage.Grounded.later {stage : Stage ζ}
    (h : stage.Grounded opts s.publications packet arrived now) (hl : Later s s')
    (hnow : now ≤ s.now) {now' : Nat} (hnow' : now ≤ now') :
    stage.Grounded opts s'.publications packet arrived now' := by
  cases stage with
  | received => trivial
  | done => trivial
  | transferring v response => exact h
  | applying v response master transferred zone => exact ⟨h.1, h.2.later hl hnow hnow'⟩
  | deleting response => exact h

end

/-! ## The invariant -/

/-- A handler has a query that was sent before it. -/
structure Handler.Grounded (opts : Options) (s : State ζ) (h : Handler ζ) : Prop where
  packet : h.packet ∈ s.packets
  sent : h.packet.sent < h.arrived
  arrived : h.arrived < s.now
  stage : h.stage.Grounded opts s.publications h.packet h.arrived s.now

/-- An effect is one of a handler, for a query that was sent before. -/
structure Effect.Grounded (opts : Options) (s : State ζ) (e : Effect ζ) : Prop where
  packet : e.packet ∈ s.packets
  sent : e.packet.sent < e.arrived
  arrived : e.arrived < e.time
  time : e.time < s.now
  what : e.what.Grounded opts s.publications e.packet e.arrived e.time

/-- An effect that an answer tells of. -/
structure Effect.Tells (opts : Options) (e : Effect ζ) (r : Reply) : Prop where
  addr : e.packet.addr = r.addr
  copies : e.packet.message.Copies r.message
  succeeds : ∃ v, e.packet.Asks opts v ∧ e.what.Succeeds v

/-- An effect that is what a call has asked for, under its address and its identifier. -/
structure Effect.Answers (opts : Options) (e : Effect ζ) (call : Call) : Prop where
  addr : e.packet.addr = call.addr
  id : e.packet.message.id = call.id
  zone : Gdnsd.lower e.packet.zoneName = Gdnsd.lower call.zoneName
  allowed : opts.allowed call.addr.host = true
  succeeds : e.what.Succeeds (match call.command with | .create => .CREATE | .delete => .DELETE)

/--
**Everything has its reason.** A call that has returned leads back to an effect, an effect to a
handler, and a handler to a query that was sent before it. Only the last clause is wanted; the
others are what it takes for a step to keep it.
-/
structure Grounded (opts : Options) (s : State ζ) : Prop where
  packets : ∀ p ∈ s.packets, p.sent < s.now
  handlers : ∀ h ∈ s.handlers, h.Grounded opts s
  effects : ∀ e ∈ s.effects, e.Grounded opts s
  replies : ∀ r ∈ s.replies, r.message.Success → ∃ e ∈ s.effects, e.Tells opts r
  calls : ∀ c ∈ s.calls, ∀ t, c.outcome = .returned t →
    ∃ e ∈ s.effects, e.Answers opts c ∧ e.time < t

section

variable {s' : State ζ}

theorem Handler.Grounded.later {h : Handler ζ} (hh : h.Grounded opts s) (hl : Later s s') :
    h.Grounded opts s' where
  packet := hl.packets hh.packet
  sent := hh.sent
  arrived := Nat.lt_of_lt_of_le hh.arrived hl.now
  stage := hh.stage.later hl (Nat.le_refl _) hl.now

theorem Effect.Grounded.later {e : Effect ζ} (he : e.Grounded opts s) (hl : Later s s') :
    e.Grounded opts s' where
  packet := hl.packets he.packet
  sent := he.sent
  arrived := he.arrived
  time := Nat.lt_of_lt_of_le he.time hl.now
  what := he.what.later hl (Nat.le_of_lt he.time)

/-- What is new has its reason too. -/
theorem Grounded.of (hs : Grounded opts s) (hl : Later s s')
    (packets : ∀ p ∈ s'.packets, p ∈ s.packets ∨ p.sent < s'.now)
    (handlers : ∀ h ∈ s'.handlers, h ∈ s.handlers ∨ h.Grounded opts s')
    (effects : ∀ e ∈ s'.effects, e ∈ s.effects ∨ e.Grounded opts s')
    (replies : ∀ r ∈ s'.replies, r ∈ s.replies ∨
      (r.message.Success → ∃ e ∈ s'.effects, e.Tells opts r))
    (calls : ∀ c ∈ s'.calls, c ∈ s.calls ∨ ∀ t, c.outcome = .returned t →
      ∃ e ∈ s'.effects, e.Answers opts c ∧ e.time < t) : Grounded opts s' where
  packets p hp := (packets p hp).elim
    (fun hp => Nat.lt_of_lt_of_le (hs.packets p hp) hl.now) id
  handlers h hh := (handlers h hh).elim (fun hh => (hs.handlers h hh).later hl) id
  effects e he := (effects e he).elim (fun he => (hs.effects e he).later hl) id
  replies r hr hsuccess := (replies r hr).elim
    (fun hr =>
      let ⟨e, he, htells⟩ := hs.replies r hr hsuccess
      ⟨e, hl.effects he, htells⟩) fun h => h hsuccess
  calls c hc t ht := (calls c hc).elim
    (fun hc =>
      let ⟨e, he, hanswers⟩ := hs.calls c hc t ht
      ⟨e, hl.effects he, hanswers⟩) fun h => h t ht

end

/-! ## The steps -/

/-- A step that sends no more than these queries, and changes and publishes nothing. -/
theorem later_of {s' : State ζ} (hnow : s'.now = s.now + 1) {packets : List Packet}
    (hp : s'.packets = s.packets ++ packets) {effects : List (Effect ζ)}
    (he : s'.effects = s.effects ++ effects) {later : List (Publication ζ)}
    (hpub : s'.publications = s.publications ++ later) (ht : ∀ p ∈ later, s.now ≤ p.time) :
    Later s s' where
  now := hnow ▸ Nat.le_succ _
  packets := hp ▸ List.subset_append_left _ _
  effects := he ▸ List.subset_append_left _ _
  publications := ⟨later, hpub, ht⟩

/-- A handler takes its turn. -/
theorem Grounded.run (hs : Grounded opts s) (k : Nat) (e : Event ζ) :
    Grounded opts { s.run opts k e with now := s.now + 1 } := by
  have hidle : Grounded opts { s with now := s.now + 1 } :=
    hs.of (later_of rfl (List.append_nil _).symm (List.append_nil _).symm (List.append_nil _).symm
      fun _ h => absurd h List.not_mem_nil)
      (fun _ h => .inl h) (fun _ h => .inl h) (fun _ h => .inl h) (fun _ h => .inl h)
      fun _ h => .inl h
  unfold State.run
  split
  · exact hidle
  · next h hk =>
    have hh := hs.handlers h (List.mem_of_getElem? hk)
    split
    · exact hidle
    · next m hm =>
      -- what the handler does stands on the packet it was started with
      have hmove := turn_grounded hh.arrived hh.stage hm
      have hl : Later s { s.move k h m with now := s.now + 1 } :=
        later_of rfl (List.append_nil _).symm rfl (List.append_nil _).symm
          fun _ h => absurd h List.not_mem_nil
      refine hs.of hl (fun _ h => .inl h) (fun h' hh' => ?_) (fun e' he' => ?_) (fun r hr => ?_)
        fun _ h => .inl h
      · rcases List.mem_or_eq_of_mem_set hh' with hh' | rfl
        · exact .inl hh'
        · exact .inr ⟨hh.packet, hh.sent, Nat.lt_succ_of_lt hh.arrived, hmove.stage⟩
      · rcases List.mem_append.mp he' with he' | he'
        · exact .inl he'
        · obtain ⟨w, hw, rfl⟩ := List.mem_map.mp he'
          exact .inr ⟨hh.packet, hh.sent, hh.arrived, Nat.lt_succ_self _,
            hmove.what w (Option.mem_toList.mp hw)⟩
      · rcases List.mem_append.mp hr with hr | hr
        · exact .inl hr
        · obtain ⟨message, hmessage, rfl⟩ := List.mem_map.mp hr
          have hanswer := Option.mem_toList.mp hmessage
          refine .inr fun hsuccess => ?_
          -- a successful answer comes with the effect it tells of, in the same turn
          obtain ⟨w, hw, hsucceeds⟩ := hmove.succeeds message hanswer hsuccess
          exact ⟨⟨h.packet, h.arrived, s.now, w⟩,
            List.mem_append_right _ (List.mem_map_of_mem (Option.mem_toList.mpr hw)),
            rfl, hmove.copies message hanswer, hsucceeds⟩

theorem opcode_of_isResponse {query response : Message}
    (h : query.isResponse response = true) : response.opcode = query.opcode := by
  unfold Message.isResponse at h
  simp only [Bool.and_eq_true, beq_iff_eq] at h
  exact h.1.1.2.symm

/-- What a call that returns has been given. -/
theorem returned_of_receive {call : Call} {m : Message} {t : Nat}
    (h : (call.receive m now).outcome = .returned t) :
    call.query.isResponse m = true ∧ m.aa = true ∧ m.rcode = NOERROR ∧ t = now := by
  unfold Call.receive at h
  split at h
  · next haccepted =>
    simp only [Bool.and_eq_true, beq_iff_eq] at haccepted
    exact ⟨haccepted.1.1, haccepted.1.2, haccepted.2, (Outcome.returned.inj h).symm⟩
  · cases h

theorem Effect.Answers.receive {e : Effect ζ} {call : Call} (h : e.Answers opts call)
    {m : Message} : e.Answers opts (call.receive m now) := by
  unfold Call.receive
  split <;> exact ⟨h.addr, h.id, h.zone, h.allowed, h.succeeds⟩

/-- The question of a call is the first of whatever query an answer repeats. -/
theorem Effect.Tells.answers {e : Effect ζ} {r : Reply} (h : e.Tells opts r) {call : Call}
    (haddr : r.addr = call.addr) (hresponse : call.query.isResponse r.message = true) :
    e.Answers opts call := by
  obtain ⟨v, hasks, hsucceeds⟩ := h.succeeds
  obtain ⟨q, hq, hverb⟩ := hasks.first
  unfold Message.isResponse at hresponse
  simp only [Bool.and_eq_true, beq_iff_eq, List.all_eq_true, List.any_eq_true] at hresponse
  obtain ⟨⟨⟨⟨-, hid⟩, hopcode⟩, -⟩, hquestion⟩ := hresponse
  -- the answer repeats the question of the query, and that is the question of the call
  have hmem : q ∈ r.message.question := h.copies.question ▸ List.mem_of_mem_head? hq
  obtain ⟨q', hq', hsame⟩ := hquestion q hmem
  obtain rfl := List.mem_singleton.mp hq'
  unfold Question.same at hsame
  simp only [Bool.and_eq_true, beq_iff_eq] at hsame
  obtain ⟨⟨hname, htype⟩, hclass⟩ := hsame
  -- the opcode, type and class of a call name its verb
  have hcc : e.packet.message.opcode = CC := h.copies.opcode.symm.trans hopcode.symm
  have hv : v = (match call.command with | .create => Verb.CREATE | .delete => Verb.DELETE) := by
    unfold verb at hverb
    rw [hcc, htype, hclass] at hverb
    cases hcommand : call.command <;> rw [hcommand] at hverb <;> exact (Option.some.inj hverb).symm
  refine ⟨h.addr.trans haddr, h.copies.id.symm.trans hid.symm, ?_, ?_, hv ▸ hsucceeds⟩
  · unfold Packet.zoneName
    rw [hq]
    exact hname
  · rw [← haddr, ← h.addr]
    exact hasks.allowed

theorem Grounded.step (hs : Grounded opts s) (e : Event ζ) :
    Grounded opts (Agent.step opts e s) := by
  have hnil : ∀ p : Publication ζ, p ∈ [] → s.now ≤ p.time := fun _ h => absurd h List.not_mem_nil
  have hlater : Later s { s with now := s.now + 1 } :=
    later_of rfl (List.append_nil _).symm (List.append_nil _).symm (List.append_nil _).symm hnil
  -- a step that only takes time
  have hidle : Grounded opts { s with now := s.now + 1 } :=
    hs.of hlater (fun _ h => .inl h) (fun _ h => .inl h) (fun _ h => .inl h) (fun _ h => .inl h)
      fun _ h => .inl h
  unfold Agent.step State.next
  cases e with
  | call command zoneName addr id =>
    refine hs.of (later_of rfl rfl (List.append_nil _).symm (List.append_nil _).symm hnil)
      (fun p hp => ?_) (fun _ h => .inl h) (fun _ h => .inl h) (fun _ h => .inl h) fun c hc => ?_
    · refine (List.mem_append.mp hp).imp_right fun hp => ?_
      rw [List.mem_singleton.mp hp]
      exact Nat.lt_succ_self _
    · refine (List.mem_append.mp hc).imp_right fun hc t ht => ?_
      rw [List.mem_singleton.mp hc] at ht
      cases ht
  | inject addr message =>
    refine hs.of (later_of rfl rfl (List.append_nil _).symm (List.append_nil _).symm hnil)
      (fun p hp => ?_) (fun _ h => .inl h) (fun _ h => .inl h) (fun _ h => .inl h)
      fun _ h => .inl h
    refine (List.mem_append.mp hp).imp_right fun hp => ?_
    rw [List.mem_singleton.mp hp]
    exact Nat.lt_succ_self _
  | deliver k =>
    dsimp only
    split
    · exact hidle
    · next packet hk =>
      have hmem := List.mem_of_getElem? hk
      refine hs.of (later_of rfl (List.append_nil _).symm (List.append_nil _).symm
        (List.append_nil _).symm hnil) (fun _ h => .inl h) (fun h hh => ?_) (fun _ h => .inl h)
        (fun _ h => .inl h) fun _ h => .inl h
      refine (List.mem_append.mp hh).imp_right fun hh => ?_
      rw [List.mem_singleton.mp hh]
      exact ⟨hmem, hs.packets packet hmem, Nat.lt_succ_self _, trivial⟩
  | throwAway k => exact hs.run k _
  | handle k serial => exact hs.run k _
  | transfer k servers => exact hs.run k _
  | drive k ok => exact hs.run k _
  | reply j k =>
    dsimp only
    split
    · next call reply hj hk =>
      split
      · next hguard =>
        refine hs.of (later_of rfl (List.append_nil _).symm (List.append_nil _).symm
          (List.append_nil _).symm hnil) (fun _ h => .inl h) (fun _ h => .inl h)
          (fun _ h => .inl h) (fun _ h => .inl h) fun c hc => ?_
        refine (List.mem_or_eq_of_mem_set hc).imp_right ?_
        -- a call only returns with an answer to its own query, and a handler had sent it
        rintro rfl t ht
        obtain ⟨hresponse, haa, hrcode, rfl⟩ := returned_of_receive ht
        have hopcode : reply.message.opcode ≠ NOTIFY := by
          rw [opcode_of_isResponse hresponse]
          exact (by decide : CC ≠ NOTIFY)
        obtain ⟨e, he, htells⟩ := hs.replies reply (List.mem_of_getElem? hk) ⟨haa, hrcode, hopcode⟩
        exact ⟨e, he, (htells.answers hguard.2 hresponse).receive, (hs.effects e he).time⟩
      · exact hidle
    · exact hidle
  | fail j =>
    dsimp only
    split
    · exact hidle
    · next call hj =>
      split
      · refine hs.of (later_of rfl (List.append_nil _).symm (List.append_nil _).symm
          (List.append_nil _).symm hnil) (fun _ h => .inl h) (fun _ h => .inl h)
          (fun _ h => .inl h) (fun _ h => .inl h) fun c hc => ?_
        refine (List.mem_or_eq_of_mem_set hc).imp_right ?_
        rintro rfl t ht
        cases ht
      · exact hidle
  | publish master zoneName content =>
    refine hs.of (later_of rfl (List.append_nil _).symm (List.append_nil _).symm rfl
      fun p hp => ?_) (fun _ h => .inl h) (fun _ h => .inl h) (fun _ h => .inl h)
      (fun _ h => .inl h) fun _ h => .inl h
    exact Nat.le_of_eq (by rw [List.mem_singleton.mp hp])

/-! ## Runs -/

theorem run_keeps_grounded (opts : Options) (events : List (Event ζ)) :
    Grounded opts (Run.final (step opts) events {}) := by
  have hfresh : Grounded opts ({} : State ζ) :=
    ⟨fun _ h => absurd h List.not_mem_nil, fun _ h => absurd h List.not_mem_nil,
      fun _ h => absurd h List.not_mem_nil, fun _ h => absurd h List.not_mem_nil,
      fun _ h => absurd h List.not_mem_nil⟩
  exact (Run.invariant (I := Grounded opts) (G := fun _ _ => True) (fun e _ h _ => h.step e) hfresh
    fun _ _ => trivial).2

/--
**A call that returns has been answered truly.** Whatever is lost, comes twice or late, and
whoever else sends which queries, as long as answers come from agents only: an agent that the
caller's host is allowed at has found the zone to be so, or has made it so, before the call
returned, and since it was started, unless a query with the port and the identifier of the
call had been on its way before.
-/
theorem run_answered (opts : Options) (events : List (Event ζ)) {call : Call}
    (hcall : call ∈ (Run.final (step opts) events {}).calls) {t : Nat}
    (ht : call.outcome = .returned t) :
    ∃ e ∈ (Run.final (step opts) events {}).effects, e.Answers opts call ∧ e.time < t ∧
      (call.started ≤ e.time ∨ ∃ p ∈ (Run.final (step opts) events {}).packets,
        p.addr = call.addr ∧ p.message.id = call.id ∧ p.sent < call.started) := by
  have hs := run_keeps_grounded opts events
  obtain ⟨e, he, hanswers, htime⟩ := hs.calls call hcall t ht
  refine ⟨e, he, hanswers, htime, ?_⟩
  by_contra hnone
  obtain ⟨hearly, hold⟩ := not_or.mp hnone
  have hg := hs.effects e he
  have hsent : e.packet.sent < call.started := by
    have hsa := hg.sent
    have hat := hg.arrived
    omega
  exact hold ⟨e.packet, hg.packet, hanswers.addr, hanswers.id, hsent⟩

/-! ### A query that comes twice -/

def sampleOptions : Options where
  masters := [⟨"192.0.2.1", 5354⟩]
  allowNotify := ["192.0.2.2"]

def sampleCall : Call where
  command := .create
  zoneName := "example.com."
  addr := ⟨"192.0.2.2", 40000⟩
  id := 7
  started := 1

/-- Both handlers find no zone, and the driver refuses to create it for the second time. -/
def sampleEvents : List (Event String) :=
  [.publish ⟨"192.0.2.1", 5354⟩ "example.com." (some "text"),
    .call .create "example.com." ⟨"192.0.2.2", 40000⟩ 7, .deliver 0, .deliver 0, .handle 0 none,
    .handle 1 none, .transfer 0 [(⟨"192.0.2.1", 5354⟩, true)],
    .transfer 1 [(⟨"192.0.2.1", 5354⟩, true)], .drive 1 true, .drive 0 false, .reply 0 0]

theorem run_answered_sample : ∃ e ∈ (Run.final (step sampleOptions) sampleEvents {}).effects,
    e.Answers sampleOptions { sampleCall with outcome := .returned 10 } ∧ e.time < 10 ∧
      (sampleCall.started ≤ e.time ∨
        ∃ p ∈ (Run.final (step sampleOptions) sampleEvents {}).packets,
          p.addr = sampleCall.addr ∧ p.message.id = sampleCall.id ∧ p.sent < sampleCall.started) :=
  run_answered sampleOptions sampleEvents (by decide +kernel) rfl

/--
**An agent calls its driver for those who may, and with what its masters serve.** Every
change it makes is asked for by a query that was sent before, under an address that is
allowed, and a zone it creates or updates was served by a master while it was at work.
-/
theorem run_driven (opts : Options) (events : List (Event ζ)) {e : Effect ζ}
    (he : e ∈ (Run.final (step opts) events {}).effects) :
    e.Grounded opts (Run.final (step opts) events {}) :=
  (run_keeps_grounded opts events).effects e he

theorem run_driven_sample :
    (⟨⟨sampleCall.addr, sampleCall.query, 1⟩, 3, 8,
      .applied .CREATE ⟨"192.0.2.1", 5354⟩ 7 "text" true⟩ : Effect String).Grounded sampleOptions
      (Run.final (step sampleOptions) sampleEvents {}) :=
  run_driven sampleOptions sampleEvents (by decide +kernel)

end Agent

end Designate
