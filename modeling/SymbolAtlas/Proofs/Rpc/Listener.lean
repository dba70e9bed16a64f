import SymbolAtlas.Proofs.Rpc.Reading
import SymbolAtlas.Rpc.Connection

/-!
# The listener, step by step

A step of the listener finds something in the bytes that are there and acts on it. Acting looks at
no bytes, and every step takes some, unless it is the last one. So there is an equation for the
listener that does without fuel, and an induction over its steps.

A step that need not wait for more bytes is the same with any bytes after those that are there. So
the listener gets to the same connection in whatever portions a stream arrives.

* `Connection.withInbound` — other bytes, with which all handling commutes;
* `Connection.act` — what the listener does about what it found, with `advance_of_ne`;
* `Connection.listen_eq_of_advance`, `Connection.listen_induction` — one step, and all of them;
* `Frame.step_append`, `Connection.listen_arrive` — more bytes;
* `Connection.finish_foldl_feed` — the portions of a stream, or all of it at once.
-/

namespace SymbolAtlas

namespace Frame

/-- What was found, when more bytes follow. -/
def Found.extend (more : List UInt8) : Found → Found
  | .waiting => .waiting
  | .ended => .ended
  | .onward stage rest => .onward stage (rest ++ more)
  | .console text rest => .console text (rest ++ more)
  | .message m rest => .message m (rest ++ more)
  | .bad fault rest => .bad fault (rest ++ more)

@[simp] theorem Found.extend_nil (found : Found) : found.extend [] = found := by
  cases found <;> simp [extend]

theorem Found.extend_ne_waiting {found : Found} (h : found ≠ .waiting) (more : List UInt8) :
    found.extend more ≠ .waiting := by
  cases found with
  | waiting => exact absurd rfl h
  | _ => exact nofun

theorem cutLine?_append {bytes line rest : List UInt8}
    (h : cutLine? bytes false = some (line, rest)) (more : List UInt8) (atEnd : Bool) :
    cutLine? (bytes ++ more) atEnd = some (line, rest ++ more) := by
  by_cases hmem : lineFeed ∈ bytes
  · obtain ⟨line', rest', rfl, hline⟩ := List.eq_append_cons_of_mem hmem
    rw [cutLine?_fed hline] at h
    obtain ⟨rfl, rfl⟩ : line' = line ∧ rest' = rest := by simpa using h
    rw [List.append_assoc, List.cons_append, cutLine?_fed hline]
  · rw [cutLine?_of_not_mem hmem] at h
    cases h

/-- **A step that need not wait is the same whatever follows.** -/
theorem step_append {reader : Reader} {stage : Stage} {bytes : List UInt8} {found : Found}
    (h : step reader stage bytes false = found) (hne : found ≠ .waiting) (more : List UInt8)
    (atEnd : Bool) : step reader stage (bytes ++ more) atEnd = found.extend more := by
  subst h
  cases stage with
  | headers length =>
    cases hcut : cutLine? bytes false with
    | none => exact absurd (by rw [step, hcut]; rfl) hne
    | some lr =>
      obtain ⟨line, rest⟩ := lr
      rw [step, step, hcut, cutLine?_append hcut]
      dsimp only
      cases lineEffect length (lineText line) <;> rfl
  | body n =>
    cases hrefuses : reader.origin.refuses n with
    | some e =>
      rw [step, step, hrefuses]
      rfl
    | none =>
      by_cases hlt : bytes.length < n
      · exact absurd (by rw [step, hrefuses]; simp [hlt]) hne
      · have hlong : ¬ (bytes ++ more).length < n := by
          rw [List.length_append]
          omega
        have hle : n ≤ bytes.length := by omega
        rw [step, step, hrefuses]
        dsimp only
        rw [if_neg hlt, if_neg hlong, List.take_append_of_le_length hle,
          List.drop_append_of_le_length hle]
        cases readBody reader.depth (bytes.take n) <;> rfl

end Frame

/-- What is left to be read after what was found. -/
def Inbound.after (i : Inbound) : Frame.Found → Inbound
  | .waiting | .ended => i
  | .onward stage rest => { i with stage := stage, bytes := rest }
  | .console _ rest | .message _ rest | .bad _ rest =>
    { i with stage := .headers none, bytes := rest }

/-- What is to be read when more bytes are there and it is known what follows them. -/
def Inbound.extend (i : Inbound) (more : List UInt8) (supply : Supply) : Inbound :=
  { i with bytes := i.bytes ++ more, supply := supply }

theorem Inbound.after_extend (i : Inbound) (found : Frame.Found) (more : List UInt8)
    (supply : Supply) :
    (i.extend more supply).after (found.extend more) = (i.after found).extend more supply := by
  cases found <;> rfl

theorem Inbound.supply_after (i : Inbound) (found : Frame.Found) :
    (i.after found).supply = i.supply := by
  cases found <;> rfl

namespace Connection

variable {σ : Type} {c d : Connection σ}

/-! ## Handling looks at no bytes -/

/-- The connection with other bytes to be read. -/
def withInbound (c : Connection σ) (i : Inbound) : Connection σ :=
  { c with inbound := i }

@[simp] theorem withInbound_depths (i : Inbound) : (c.withInbound i).depths = c.depths := rfl

theorem shutdown_withInbound (i : Inbound) (reason : String) :
    (c.withInbound i).shutdown reason = (c.shutdown reason).withInbound i := by
  unfold shutdown withInbound
  dsimp only
  cases c.calls.shut reason <;> rfl

theorem stop_withInbound (i : Inbound) (reason : String) :
    (c.withInbound i).stop reason = (c.stop reason).withInbound i := by
  rw [stop, shutdown_withInbound]
  rfl

theorem stopFor_withInbound (i : Inbound) (fault : StreamFault) :
    (c.withInbound i).stopFor fault = (c.stopFor fault).withInbound i := by
  cases fault with
  | broken text => exact stop_withInbound i _
  | other kind text => exact stop_withInbound (c := c.record _ _ _) i _

theorem write_withInbound (i : Inbound) (depth : Nat) (m : Json) :
    (c.withInbound i).write depth m = ((c.write depth m).1, (c.write depth m).2.withInbound i) := by
  have hfault : (c.withInbound i).writeFault? depth m = c.writeFault? depth m := rfl
  unfold write
  rw [hfault]
  cases c.writeFault? depth m with
  | none => rfl
  | some fault =>
    cases fault with
    | broken text =>
      dsimp only
      rw [shutdown_withInbound]
    | other kind text => rfl

theorem respond_withInbound (i : Inbound) (method : Text) (params : Json) :
    (c.withInbound i).respond method params =
      ((c.respond method params).1, (c.respond method params).2.withInbound i) := by
  unfold respond withInbound
  dsimp only
  cases c.handlers.request with
  | none => rfl
  | some handle =>
    dsimp only
    cases (handle method params c.owner).result <;> rfl

theorem answer_withInbound (i : Inbound) (id : Json) (method : Text) (params : Json) :
    (c.withInbound i).answer id method params =
      ((c.answer id method params).1, (c.answer id method params).2.withInbound i) := by
  unfold answer
  rw [respond_withInbound]
  obtain ⟨field, e⟩ := c.respond method params
  dsimp only [withInbound_depths]
  rw [write_withInbound]
  obtain ⟨fault, f⟩ := e.write _ _
  dsimp only
  cases fault with
  | none => rfl
  | some fault => cases fault <;> rfl

theorem handOn_withInbound (i : Inbound) (method : Text) (params : Json) :
    (c.withInbound i).handOn method params = (c.handOn method params).withInbound i := by
  unfold handOn withInbound
  dsimp only
  cases c.handlers.notification with
  | none => rfl
  | some handle =>
    dsimp only
    cases (handle method params c.owner).result <;> rfl

theorem resolve_withInbound (i : Inbound) (m : Json.Object) :
    (c.withInbound i).resolve m = (c.resolve m).withInbound i := by
  unfold resolve withInbound
  dsimp only
  cases c.calls.take (Json.fieldOrNull m "id") <;> rfl

theorem dispatch_withInbound (i : Inbound) (m : Json.Object) :
    (c.withInbound i).dispatch m = ((c.dispatch m).1, (c.dispatch m).2.withInbound i) := by
  unfold dispatch
  split
  · dsimp only
    split
    · exact answer_withInbound i _ _ _
    · rw [handOn_withInbound]
  · split
    · rw [resolve_withInbound]
    · rfl

theorem hear_withInbound (i : Inbound) (line : String) :
    (c.withInbound i).hear line = ((c.hear line).1, (c.hear line).2.withInbound i) := by
  unfold hear withInbound
  dsimp only
  cases c.handlers.output with
  | none => rfl
  | some handle =>
    dsimp only
    cases (handle line c.owner).result <;> rfl

theorem stopIf_withInbound (i : Inbound) (r : Option StreamFault × Connection σ) :
    stopIf (r.1, r.2.withInbound i) = (stopIf r).withInbound i := by
  obtain ⟨fault, e⟩ := r
  cases fault with
  | none => rfl
  | some fault => exact stopFor_withInbound i fault

/-! ## Handling leaves the depths alone -/

theorem respond_depths (method : Text) (params : Json) :
    (c.respond method params).2.depths = c.depths := by
  unfold respond
  split
  · rfl
  · dsimp only
    split <;> rfl

theorem answer_depths (id : Json) (method : Text) (params : Json) :
    (c.answer id method params).2.depths = c.depths := by
  rw [← c.respond_depths method params]
  unfold answer
  generalize c.respond method params = r
  obtain ⟨field, e⟩ := r
  have hwritten :=
    e.write_depths e.depths.answer (.obj [("jsonrpc", .str "2.0"), ("id", id), field])
  dsimp only
  generalize e.write _ _ = w at hwritten ⊢
  obtain ⟨fault, d⟩ := w
  cases fault with
  | none => exact hwritten
  | some fault => cases fault <;> exact hwritten

theorem handOn_depths (method : Text) (params : Json) :
    (c.handOn method params).depths = c.depths := by
  unfold handOn
  split
  · rfl
  · dsimp only
    split <;> rfl

theorem dispatch_depths (m : Json.Object) : (c.dispatch m).2.depths = c.depths := by
  unfold dispatch
  split
  · dsimp only
    split
    · exact answer_depths ..
    · exact handOn_depths ..
  · split
    · unfold resolve
      dsimp only
      split <;> rfl
    · rfl

theorem hear_depths (line : String) : (c.hear line).2.depths = c.depths := by
  unfold hear
  split
  · rfl
  · dsimp only
    split <;> rfl

theorem stop_depths (reason : String) : (c.stop reason).depths = c.depths :=
  c.shutdown_depths reason

theorem stopFor_depths (fault : StreamFault) : (c.stopFor fault).depths = c.depths := by
  cases fault with
  | broken text => exact stop_depths _
  | other kind text => exact (c.record _ _ _).stop_depths _

theorem stopIf_depths (r : Option StreamFault × Connection σ) : (stopIf r).depths = r.2.depths := by
  obtain ⟨fault, e⟩ := r
  cases fault with
  | none => rfl
  | some fault => exact e.stopFor_depths fault

/-! ## A step of the listener -/

/-- What the listener does about what was found. -/
def act (c : Connection σ) : Frame.Found → Connection σ
  | .waiting | .onward _ _ => c
  | .ended => c.stop serverClosed
  | .console text _ => stopIf (c.hear text)
  | .message m _ => stopIf (c.dispatch m)
  | .bad (.frame e) _ => c.stop s!"protocol error: {e.message}"
  | .bad (.length e) _ => c.stopFor (.other e.kind e.text)
  | .bad .longInteger _ => c.stop s!"read failed: {longIntegerMessage}"

theorem act_depths (found : Frame.Found) : (c.act found).depths = c.depths := by
  cases found with
  | waiting => rfl
  | ended => exact stop_depths _
  | onward stage rest => rfl
  | console text rest => exact (stopIf_depths _).trans (hear_depths text)
  | message m rest => exact (stopIf_depths _).trans (dispatch_depths m)
  | bad fault rest =>
    cases fault with
    | frame e => exact stop_depths _
    | length e => exact stopFor_depths _
    | longInteger => exact stop_depths _

theorem act_extend (c : Connection σ) (found : Frame.Found) (more : List UInt8) :
    c.act (found.extend more) = c.act found := by
  cases found with
  | bad fault rest => cases fault <;> rfl
  | _ => rfl

theorem act_withInbound (i : Inbound) (found : Frame.Found) :
    (c.withInbound i).act found = (c.act found).withInbound i := by
  cases found with
  | waiting => rfl
  | ended => exact stop_withInbound i _
  | onward stage rest => rfl
  | console text rest =>
    rw [act, act, hear_withInbound, stopIf_withInbound]
  | message m rest =>
    rw [act, act, dispatch_withInbound, stopIf_withInbound]
  | bad fault rest =>
    cases fault with
    | frame e => exact stop_withInbound i _
    | length e => exact stopFor_withInbound i (.other e.kind e.text)
    | longInteger => exact stop_withInbound i _

/-- What the listener finds next. -/
def found (c : Connection σ) : Frame.Found :=
  Frame.step c.reader c.inbound.stage c.inbound.bytes (c.inbound.supply == .over)

theorem advance_of_ne (h : c.found ≠ .waiting) :
    c.advance = some ((c.act c.found).withInbound (c.inbound.after c.found)) := by
  obtain ⟨f, hf⟩ : ∃ f, c.found = f := ⟨_, rfl⟩
  have hstep := hf
  unfold Connection.found at hstep
  rw [hf] at h ⊢
  unfold advance
  dsimp only
  rw [hstep, ← act_withInbound]
  cases f with
  | waiting => exact absurd rfl h
  | bad fault rest => cases fault <;> rfl
  | _ => rfl

/-- Without a whole line or body the listener goes on only to stop, where the stream fails. -/
theorem advance_of_waiting (hf : c.found = .waiting) (h : c.advance = some d) :
    ∃ fault, c.inbound.supply = .failing fault ∧ d = c.stopFor fault := by
  unfold Connection.found at hf
  simp only [advance, hf] at h
  split at h
  · next fault hfailing => exact ⟨fault, hfailing, (Option.some.inj h).symm⟩
  · cases h

theorem stopFor_listener (fault : StreamFault) : (c.stopFor fault).listener = .stopped := by
  cases fault <;> rfl

theorem stopFor_inbound (fault : StreamFault) : (c.stopFor fault).inbound = c.inbound := by
  have h := congrArg inbound (stopFor_withInbound (c := c) c.inbound fault)
  exact h

theorem advance_supply (h : c.advance = some d) : d.inbound.supply = c.inbound.supply := by
  by_cases hf : c.found = .waiting
  · obtain ⟨fault, -, rfl⟩ := advance_of_waiting hf h
    rw [stopFor_inbound]
  · rw [advance_of_ne hf] at h
    obtain rfl := Option.some.inj h
    exact Inbound.supply_after _ _

/-- A step after which the listener still runs takes a byte. -/
theorem advance_shorter (h : c.advance = some d) (hrunning : d.listener = .running) :
    d.inbound.bytes.length < c.inbound.bytes.length := by
  by_cases hf : c.found = .waiting
  · obtain ⟨fault, -, rfl⟩ := advance_of_waiting hf h
    rw [stopFor_listener] at hrunning
    cases hrunning
  · rw [advance_of_ne hf] at h
    obtain rfl := Option.some.inj h
    -- at the end of the stream the step would be the same
    have hend : Frame.step c.reader c.inbound.stage c.inbound.bytes true = c.found := by
      cases hover : c.inbound.supply == .over with
      | true => rw [Connection.found, hover]
      | false =>
        have hstep : Frame.step c.reader c.inbound.stage c.inbound.bytes false = c.found := by
          rw [Connection.found, hover]
        simpa using Frame.step_append hstep hf [] true
    cases hfound : c.found with
    | waiting => exact absurd hfound hf
    | ended =>
      rw [hfound] at hrunning
      cases hrunning
    | onward stage rest => exact Frame.step_shorter.1 _ _ (hend.trans hfound)
    | console text rest => exact Frame.step_shorter.2 _ _ (hend.trans hfound)
    | message m rest => exact Frame.length_lt_of_step_message (hend.trans hfound)
    | bad fault rest =>
      rw [hfound] at hrunning
      cases fault <;> cases hrunning

/-! ## All the steps -/

theorem listenFor_of_ne (fuel : Nat) (h : c.listener ≠ .running) : listenFor fuel c = c := by
  cases fuel with
  | zero => rfl
  | succ fuel => rw [listenFor, if_neg h]

theorem listen_of_ne (h : c.listener ≠ .running) : c.listen = c :=
  listenFor_of_ne _ h

theorem listenFor_congr {fuel fuel' : Nat} (h : c.inbound.bytes.length < fuel)
    (h' : c.inbound.bytes.length < fuel') : listenFor fuel c = listenFor fuel' c := by
  induction fuel generalizing fuel' c with
  | zero => omega
  | succ fuel ih =>
    obtain ⟨fuel', rfl⟩ : ∃ k, fuel' = k + 1 := ⟨fuel' - 1, by omega⟩
    by_cases hrunning : c.listener = .running
    · rw [listenFor, listenFor, if_pos hrunning, if_pos hrunning]
      cases hadvance : c.advance with
      | none => rfl
      | some d =>
        by_cases hd : d.listener = .running
        · have hlt := advance_shorter hadvance hd
          exact ih (by omega) (by omega)
        · dsimp only
          rw [listenFor_of_ne _ hd, listenFor_of_ne _ hd]
    · rw [listenFor_of_ne _ hrunning, listenFor_of_ne _ hrunning]

/-- **The listener takes a step, and then all the others.** -/
theorem listen_eq_of_advance (hrunning : c.listener = .running) (h : c.advance = some d) :
    c.listen = d.listen := by
  rw [listen, listenFor, if_pos hrunning, h]
  dsimp only
  by_cases hd : d.listener = .running
  · have hlt := advance_shorter h hd
    exact listenFor_congr hlt (Nat.lt_succ_self _)
  · rw [listenFor_of_ne _ hd, listen_of_ne hd]

theorem listen_of_advance_none (h : c.advance = none) : c.listen = c := by
  rw [listen, listenFor, h]
  split <;> rfl

/-- By induction on the bytes that are there: the listener stops, or waits, or takes a byte. -/
theorem listen_induction {motive : Connection σ → Prop}
    (stopped : ∀ c, c.listener ≠ .running → motive c)
    (waits : ∀ c, c.listener = .running → c.advance = none → motive c)
    (step : ∀ c d, c.listener = .running → c.advance = some d → motive d → motive c)
    (c : Connection σ) : motive c := by
  induction hn : c.inbound.bytes.length using Nat.strongRecOn generalizing c with
  | ind n ih =>
    subst hn
    by_cases hrunning : c.listener = .running
    · cases hadvance : c.advance with
      | none => exact waits c hrunning hadvance
      | some d =>
        refine step c d hrunning hadvance ?_
        by_cases hd : d.listener = .running
        · exact ih _ (advance_shorter hadvance hd) d rfl
        · exact stopped d hd
    · exact stopped c hrunning

theorem listen_supply (c : Connection σ) : c.listen.inbound.supply = c.inbound.supply := by
  induction c using listen_induction with
  | stopped c h => rw [listen_of_ne h]
  | waits c _ h => rw [listen_of_advance_none h]
  | step c d hrunning h ih => rw [listen_eq_of_advance hrunning h, ih, advance_supply h]

/-! ## More bytes -/

/-- More bytes arrive, and it is known what follows them. -/
def arrive (c : Connection σ) (more : List UInt8) (supply : Supply) : Connection σ :=
  c.withInbound (c.inbound.extend more supply)

/-- A step that was taken is the same whatever arrives. -/
theorem advance_arrive (hopen : c.inbound.supply = .open) (h : c.advance = some d)
    (more : List UInt8) (supply : Supply) :
    (c.arrive more supply).advance = some (d.arrive more supply) := by
  have hf : c.found ≠ .waiting := by
    intro hwaiting
    obtain ⟨fault, hfailing, -⟩ := advance_of_waiting hwaiting h
    rw [hopen] at hfailing
    cases hfailing
  have hstep : Frame.step c.reader c.inbound.stage c.inbound.bytes false = c.found := by
    rw [Connection.found, hopen]
    rfl
  have hfound : (c.arrive more supply).found = c.found.extend more :=
    Frame.step_append hstep hf more _
  rw [advance_of_ne hf] at h
  obtain rfl := Option.some.inj h
  rw [advance_of_ne (hfound ▸ Frame.Found.extend_ne_waiting hf more), hfound, arrive,
    act_withInbound, act_extend]
  exact congrArg some (congrArg (withInbound _) (Inbound.after_extend _ _ more supply))

/-- **What the listener did before more bytes arrived, it would also do afterwards.** -/
theorem listen_arrive (hopen : c.inbound.supply = .open) (more : List UInt8) (supply : Supply) :
    (c.listen.arrive more supply).listen = (c.arrive more supply).listen := by
  induction c using listen_induction with
  | stopped c h => rw [listen_of_ne h]
  | waits c _ h => rw [listen_of_advance_none h]
  | step c d hrunning h ih =>
    have hd := ih ((advance_supply h).trans hopen)
    rw [listen_eq_of_advance hrunning h, hd]
    exact (listen_eq_of_advance (c := c.arrive more supply) hrunning
      (advance_arrive hopen h more supply)).symm

theorem arrive_arrive (more later : List UInt8) (supply supply' : Supply) :
    (c.arrive more supply).arrive later supply' = c.arrive (more ++ later) supply' := by
  unfold arrive withInbound Inbound.extend
  simp

theorem feed_eq (hopen : c.inbound.supply = .open) (bytes : List UInt8) :
    c.feed bytes = (c.arrive bytes .open).listen := by
  rw [← hopen]
  rfl

theorem foldl_feed (hopen : c.inbound.supply = .open) (portions : List (List UInt8)) :
    portions.foldl feed c.listen = (c.arrive portions.flatten .open).listen := by
  induction portions generalizing c with
  | nil =>
    have hnothing : c.arrive [] .open = c := by
      unfold arrive withInbound Inbound.extend
      rw [List.append_nil, ← hopen]
    rw [List.foldl_nil, List.flatten_nil, hnothing]
  | cons bytes portions ih =>
    rw [List.foldl_cons, feed_eq ((listen_supply c).trans hopen), listen_arrive hopen, ih rfl,
      arrive_arrive, List.flatten_cons]

/-- **It makes no difference in what portions a stream arrives.** Whatever has arrived when the
listener starts, and however the rest is cut, the connection gets to where it gets when the whole
stream is there from the beginning. -/
theorem finish_foldl_feed (hidle : c.listener = .idle) (hopen : c.inbound.supply = .open)
    (portions : List (List UInt8)) :
    (portions.foldl feed c.start).finish =
      (({ c with listener := .running } : Connection σ).arrive portions.flatten .over).listen := by
  have hstart : c.start = ({ c with listener := .running } : Connection σ).listen := by
    unfold start
    rw [hidle]
  have hfinish : ∀ e : Connection σ, e.finish = (e.arrive [] .over).listen := by
    intro e
    unfold finish arrive withInbound Inbound.extend
    rw [List.append_nil]
  rw [hstart, foldl_feed (c := { c with listener := .running }) hopen, hfinish,
    listen_arrive (c := ({ c with listener := .running } : Connection σ).arrive _ .open) rfl,
    arrive_arrive, List.append_nil]

end Connection

end SymbolAtlas
