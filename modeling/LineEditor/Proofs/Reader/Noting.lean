import LineEditor.Proofs.Session.Effects
import LineEditor.Reader

/-!
# Reading lines with notes

While a line is edited, calls to the terminal and answers of the source of keys take turns.  To see in
which order, the loop over the keys here notes every answer of the source at the terminal.  The loop is
the only place that changes: what is around it is said for any loop, and notes that nothing depends on
can be forgotten.

* `readKeysNoting` — the loop with notes; `forgets_readKeysNoting` — without them, it is `readKeys`.
* `readKeysNoting_ends` — what every key keeps, the loop keeps.
* `Reader.readLineWith` — a line with any loop; `Reader.readLineNoting` — with notes.
* `Reader.forgets_readLineNoting` — without them, it is `readLine`.
* `Reader.editWith_ends`, `Reader.closeWith_leaves_behind`, `Reader.readLineWith_ends` — how a line ends,
  put together from how its parts do; `Reader.readLineNoting_keeps` — what every call keeps, it keeps.
-/

set_option autoImplicit false

open LineEditor.Action

namespace LineEditor

namespace Session

variable {τ τ' κ : Type} [Terminal τ] [Terminal τ'] [KeySource κ]

/-! ## Keys -/

omit [Terminal τ] in
/-- The session with a note at its terminal. -/
def noted (note : τ → τ) (session : Session τ) : Session τ :=
  { session with terminal := note session.terminal }

/-- Take keys until Enter is pressed or the input ends, with a note of all that the source hands out. -/
def readKeysNoting (note : Except Failure Key → τ → τ) (width : Char → Nat) (session : Session τ)
    (keys : κ) : EStateM.Result Failure (Session τ × κ) Bool :=
  match session.phase with
  | .terminating => .ok false (session, keys)
  | .reading =>
    match _ : KeySource.readKey keys with
    | .error failure keys =>
      let session := session.noted (note (.error failure))
      if failure.isEndOfInput then .ok true (session, keys) else .error failure (session, keys)
    | .ok key next =>
      match processKey width key (session.noted (note (.ok key))) with
      | .error failure session => .error failure (session, next)
      | .ok _ session =>
        if _ : key = .control .enter then .ok false (session, next)
        else readKeysNoting note width session next
termination_by KeySource.remaining keys
decreasing_by exact KeySource.remaining_lt ‹_› ‹_›

variable {note : Except Failure Key → τ → τ} {width : Char → Nat} {session : Session τ} {keys next : κ}

/-- How a loop over keys ends: with a session of which `holds` is true, or with one that failed. -/
def LoopEnds (holds : Session τ → Prop) (failed : Failure → Session τ → Prop) :
    EStateM.Result Failure (Session τ × κ) Bool → Prop
  | .ok _ (last, _) => holds last
  | .error failure (last, _) => failed failure last

omit [Terminal τ] [KeySource κ] in
theorem LoopEnds.mono {holds holds' : Session τ → Prop} {failed failed' : Failure → Session τ → Prop}
    {result : EStateM.Result Failure (Session τ × κ) Bool} (h : LoopEnds holds failed result)
    (hholds : ∀ session, holds session → holds' session)
    (hfailed : ∀ failure session, failed failure session → failed' failure session) :
    LoopEnds holds' failed' result := by
  cases result with
  | ok _ last => exact hholds last.1 h
  | error failure last => exact hfailed failure last.1 h

/-- **What every key keeps, the loop keeps.**  `holds` is true whenever a key is asked for, and `failed`
of whatever stops the loop. -/
theorem readKeysNoting_ends (width : Char → Nat) (keys : κ) {holds : Session τ → Prop}
    {failed : Failure → Session τ → Prop}
    (hend : ∀ session failure, holds session → failure.isEndOfInput = true →
      holds (session.noted (note (.error failure))))
    (hstop : ∀ session failure, holds session → failure.isEndOfInput = false →
      failed failure (session.noted (note (.error failure))))
    (hkey : ∀ session key, holds session →
      Ends (processKey width key) (session.noted (note (.ok key))) (fun _ => holds) failed)
    (h : holds session) :
    LoopEnds holds failed (readKeysNoting note width session keys) := by
  fun_induction readKeysNoting note width session keys with
  | case1 => exact h
  | case2 session _ _ _ _ _ _ hended => exact hend session _ h hended
  | case3 session _ _ _ _ _ _ hopen => exact hstop session _ h (Bool.eq_false_iff.mpr hopen)
  | case4 session _ _ key _ _ _ _ hrun => exact (hkey session key h).of_error hrun
  | case5 session _ _ _ _ _ _ hrun => exact (hkey session _ h).of_ok hrun
  | case6 session _ _ key _ _ _ _ hrun _ ih => exact ih ((hkey session key h).of_ok hrun)

/-- The notes make a change of some kind, also the one of a failure that ends the loop. -/
structure NotesHave (change : Change Failure τ) (note : Except Failure Key → τ → τ) : Prop where
  key (key : Key) (terminal : τ) : change.passes terminal (note (.ok key) terminal)
  ended (failure : Failure) (terminal : τ) (h : failure.isEndOfInput = true) :
    change.passes terminal (note (.error failure) terminal)
  failed (failure : Failure) (terminal : τ) (h : failure.isEndOfInput = false) :
    change.fails terminal failure (note (.error failure) terminal)

/-- The loop makes the change that every call and every note make. -/
theorem readKeysNoting_has {change : Change Failure τ} (h : CallsHave change)
    (hline : ∀ terminal failure, change.fails terminal failure terminal)
    (hnotes : NotesHave change note) (width : Char → Nat) (session : Session τ) (keys : κ) :
    LoopEnds (fun last => change.passes session.terminal last.terminal)
      (fun failure last => change.fails session.terminal failure last.terminal)
      (readKeysNoting note width session keys) := by
  refine readKeysNoting_ends width keys ?_ ?_ ?_ (change.refl session.terminal)
  · intro last failure hlast hended
    exact change.trans hlast (hnotes.ended failure _ hended)
  · intro last failure hlast hopen
    exact change.fails_after hlast (hnotes.failed failure _ hopen)
  · intro last key hlast
    have hnoted := change.trans hlast (hnotes.key key last.terminal)
    exact (h.processKey width hline key _).mono (fun _ _ => change.trans hnoted)
      fun _ _ => change.fails_after hnoted

/-! ## The loop without notes -/

theorem readKeys_terminating (h : session.phase = .terminating) :
    readKeys width session keys = .ok false (session, keys) := by
  rw [readKeys, h]

theorem readKeys_of_error {failure : Failure} (h : session.phase = .reading)
    (hread : KeySource.readKey keys = .error failure next) :
    readKeys width session keys =
      if failure.isEndOfInput then .ok true (session, next) else .error failure (session, next) := by
  rw [readKeys, h]
  dsimp only
  split
  case h_1 hread' =>
    rw [hread] at hread'
    cases hread'
    rfl
  case h_2 hread' =>
    rw [hread] at hread'
    cases hread'

theorem readKeys_of_ok {key : Key} (h : session.phase = .reading)
    (hread : KeySource.readKey keys = .ok key next) :
    readKeys width session keys =
      match processKey width key session with
      | .error failure session => .error failure (session, next)
      | .ok _ session =>
        if key = .control .enter then .ok false (session, next) else readKeys width session next := by
  rw [readKeys, h]
  dsimp only
  split
  case h_1 hread' =>
    rw [hread] at hread'
    cases hread'
  case h_2 hread' =>
    rw [hread] at hread'
    cases hread'
    rfl

variable {image : τ → τ'}

/-- **Without the notes, the loop with notes is the loop.** -/
theorem forgets_readKeysNoting (h : CallsMirror image)
    (hnote : ∀ answer terminal, image (note answer terminal) = image terminal) :
    mapState (Prod.map (mapTerminal image) id) (readKeysNoting note width session keys) =
      readKeys width (mapTerminal image session) keys := by
  have hforget (session : Session τ) (answer : Except Failure Key) :
      mapTerminal image (session.noted (note answer)) = mapTerminal image session := by
    rw [mapTerminal, mapTerminal, noted, hnote]
  have hkey (session : Session τ) (key : Key) : processKey width key (mapTerminal image session) =
      mapState (mapTerminal image) (processKey width key (session.noted (note (.ok key)))) := by
    rw [← hforget session (.ok key)]
    exact (h.processKey width key _).symm
  fun_induction readKeysNoting note width session keys with
  | case1 session keys hphase =>
    have hphase : (mapTerminal image session).phase = .terminating := hphase
    rw [readKeys_terminating hphase]
    rfl
  | case2 session keys hphase failure next hread noted hended =>
    have hphase : (mapTerminal image session).phase = .reading := hphase
    rw [readKeys_of_error hphase hread, if_pos hended, ← hforget session (.error failure)]
    rfl
  | case3 session keys hphase failure next hread noted hopen =>
    have hphase : (mapTerminal image session).phase = .reading := hphase
    rw [readKeys_of_error hphase hread, if_neg hopen, ← hforget session (.error failure)]
    rfl
  | case4 session keys hphase key next hread failure stopped hrun =>
    have hphase : (mapTerminal image session).phase = .reading := hphase
    rw [readKeys_of_ok hphase hread, hkey, hrun]
    rfl
  | case5 session keys hphase next phase last hread hrun =>
    have hphase : (mapTerminal image session).phase = .reading := hphase
    rw [readKeys_of_ok hphase hread, hkey, hrun]
    rfl
  | case6 session keys hphase key next hread phase last hrun henter ih =>
    have hphase : (mapTerminal image session).phase = .reading := hphase
    rw [readKeys_of_ok hphase hread, hkey, hrun, ih]
    exact (if_neg henter).symm

/-! ## A session with any loop -/

/-- How a session takes its keys, given the measure of characters; tells whether the input has ended. -/
abbrev Loop (τ κ : Type) : Type :=
  (Char → Nat) → Session τ → κ → EStateM.Result Failure (Session τ × κ) Bool

/-- Take keys as the loop does, then finish the line. -/
def runWith (loop : Loop τ κ) (width : Char → Nat) (terminator : String) :
    Action (Session τ × κ) Outcome := fun (session, keys) =>
  match loop width session keys with
  | .error failure state => .error failure state
  | .ok endOfInput (session, keys) =>
    match finish width terminator session with
    | .error failure session => .error failure (session, keys)
    | .ok line session => .ok { line, endOfInput } (session, keys)

theorem runWith_readKeys (terminator : String) :
    runWith readKeys width terminator = (run width terminator : Action (Session τ × κ) Outcome) :=
  rfl

omit [KeySource κ] in
/-- **What the loop and the end of the line keep, a whole line keeps.** -/
theorem runWith_ends {loop : Loop τ κ} {terminator : String} {holds : Session τ → Prop}
    {failed : Failure → Session τ → Prop} (hloop : LoopEnds holds failed (loop width session keys))
    (hfinish : ∀ session, holds session →
      Ends (finish width terminator) session (fun _ => holds) failed) :
    Ends (runWith loop width terminator) (session, keys) (fun _ last => holds last.1)
      fun failure last => failed failure last.1 := by
  unfold Ends runWith
  dsimp only
  cases hrun : loop width session keys with
  | error failure last =>
    rw [hrun] at hloop
    exact hloop
  | ok endOfInput last =>
    rw [hrun] at hloop
    have hlast := hfinish last.1 hloop
    dsimp only
    cases hend : finish width terminator last.1 with
    | error failure finished => exact hlast.of_error hend
    | ok line finished => exact hlast.of_ok hend

variable (width) in
omit [KeySource κ] in
theorem mirrors_runWith (h : CallsMirror image) {loop : Loop τ κ} {loop' : Loop τ' κ}
    (hloop : ∀ session keys, mapState (Prod.map (mapTerminal image) id) (loop width session keys) =
      loop' width (mapTerminal image session) keys)
    (terminator : String) (state : Session τ × κ) :
    Mirrors (Prod.map (mapTerminal image) id) (runWith loop width terminator)
      (runWith loop' width terminator) state := by
  obtain ⟨session, keys⟩ := state
  have hloop := hloop session keys
  unfold Mirrors runWith
  rw [Prod.map]
  dsimp only [id]
  rw [← hloop]
  cases loop width session keys with
  | error failure last => rfl
  | ok endOfInput last =>
    have hend := h.finish width terminator last.1
    unfold Mirrors at hend
    simp only [mapState, Prod.map, id]
    rw [← hend]
    cases finish width terminator last.1 <;> rfl

omit [Terminal τ] [Terminal τ'] in
theorem create_image (image : τ → τ') (terminal : τ) (settings : Settings) (memory : Memory) :
    create (image terminal) settings memory =
      match create terminal settings memory with
      | .ok session after => .ok (mapTerminal image session) after
      | .error failure after => .error failure after := by
  unfold create
  cases Line.create settings.initialCapacity settings.capacityLimit memory <;> rfl

omit [Terminal τ] in
theorem terminal_of_create {terminal : τ} {settings : Settings} {memory after : Memory}
    {session : Session τ} (h : create terminal settings memory = .ok session after) :
    session.terminal = terminal := by
  unfold create at h
  split at h
  · cases h
    rfl
  · cases h

end Session

/-! ## Lines -/

namespace Reader

variable {τ τ' κ : Type} [Terminal τ] [Terminal τ'] [KeySource κ]

/-- Edit one line with a loop. -/
def editWith (loop : Session.Loop τ κ) : Action (Reader τ κ) Session.Outcome := fun reader =>
  match Session.create reader.terminal reader.settings reader.memory with
  | .error failure memory => .error failure { reader with memory }
  | .ok session _ =>
    match Session.runWith loop reader.width reader.settings.terminator (session, reader.keys) with
    | .ok outcome (session, keys) =>
      .ok outcome { reader with terminal := session.terminal, memory := session.line.memory, keys }
    | .error failure (session, keys) =>
      .error failure { reader with terminal := session.terminal, memory := session.line.memory, keys }

/-- Edit one line with a loop, then leave raw mode if it was entered. -/
def closeWith (loop : Session.Loop τ κ) (raw : Bool) : Action (Reader τ κ) String := fun reader =>
  match editWith loop reader with
  | .error failure reader =>
    let exhausted := reader.exhausted || failure.isEndOfInput
    match restore raw reader with
    | .ok () reader => .error failure { reader with exhausted }
    | .error _ reader => .error failure { reader with exhausted }
  | .ok outcome reader =>
    let exhausted := reader.exhausted || outcome.endOfInput
    match restore raw reader with
    | .ok () reader => .ok outcome.line { reader with exhausted }
    | .error failure reader => .error failure { reader with exhausted }

/-- Read one line with a loop. -/
def readLineWith (loop : Session.Loop τ κ) : Action (Reader τ κ) String := fun reader =>
  if reader.exhausted then .error .endOfInput reader
  else
    match enterRawMode reader with
    | .error failure reader => .error failure reader
    | .ok raw reader => closeWith loop raw reader

theorem editWith_readKeys :
    editWith Session.readKeys = (edit : Action (Reader τ κ) Session.Outcome) := rfl

theorem readLineWith_readKeys :
    readLineWith Session.readKeys = (readLine : Action (Reader τ κ) String) := rfl

/-! ## The image of a reader -/

/-- The reader on the image of its terminal. -/
def mapTerminal (image : τ → τ') (reader : Reader τ κ) : Reader τ' κ where
  terminal := image reader.terminal
  keys := reader.keys
  settings := reader.settings
  width := reader.width
  memory := reader.memory
  exhausted := reader.exhausted
  degraded := reader.degraded

/-- Every call that a reader makes ends on the image of a terminal as it does on the terminal. -/
structure CallsMirror (image : τ → τ') : Prop extends Session.CallsMirror image where
  enterRawMode (t : τ) :
    Mirrors image (Terminal.enterRawMode : Action τ Unit) Terminal.enterRawMode t
  leaveRawMode (t : τ) :
    Mirrors image (Terminal.leaveRawMode : Action τ Unit) Terminal.leaveRawMode t

variable {image : τ → τ'} {loop : Session.Loop τ κ} {loop' : Session.Loop τ' κ}

omit [Terminal τ] [Terminal τ'] [KeySource κ] in
theorem mirrors_onTerminal {step : Action τ Unit} {step' : Action τ' Unit}
    (h : ∀ t, Mirrors image step step' t) (reader : Reader τ κ) :
    Mirrors (mapTerminal image) (onTerminal step) (onTerminal step') reader := by
  have himage : step' (mapTerminal image reader).terminal = mapState image (step reader.terminal) :=
    (h reader.terminal).symm
  unfold Mirrors
  rw [onTerminal, onTerminal, within, within, himage]
  cases step reader.terminal <;> rfl

omit [KeySource κ] in
theorem CallsMirror.enters (h : CallsMirror image) (reader : Reader τ κ) :
    Mirrors (mapTerminal image) Reader.enterRawMode Reader.enterRawMode reader := by
  have hmode := mirrors_onTerminal h.enterRawMode reader
  unfold Mirrors at hmode ⊢
  unfold Reader.enterRawMode
  rw [← hmode]
  cases onTerminal Terminal.enterRawMode reader with
  | ok _ next => rfl
  | error failure next =>
    change mapState (mapTerminal image) (if next.settings.allowsDegraded then _ else _) =
      if next.settings.allowsDegraded then _ else _
    split <;> rfl

omit [KeySource κ] in
theorem CallsMirror.restores (h : CallsMirror image) (raw : Bool) (reader : Reader τ κ) :
    Mirrors (mapTerminal image) (restore raw) (restore raw) reader := by
  cases raw with
  | false => exact mirrors_pure ()
  | true => exact mirrors_onTerminal h.leaveRawMode reader

omit [KeySource κ] in
theorem CallsMirror.edits (h : CallsMirror image)
    (hloop : ∀ width session keys,
      mapState (Prod.map (Session.mapTerminal image) id) (loop width session keys) =
        loop' width (Session.mapTerminal image session) keys) (reader : Reader τ κ) :
    Mirrors (mapTerminal image) (editWith loop) (editWith loop') reader := by
  unfold Mirrors editWith
  dsimp only [mapTerminal]
  rw [Session.create_image image]
  cases Session.create reader.terminal reader.settings reader.memory with
  | error failure memory => rfl
  | ok session memory =>
    have hrun := Session.mirrors_runWith reader.width h.toCallsMirror (hloop reader.width)
      reader.settings.terminator (session, reader.keys)
    unfold Mirrors at hrun
    dsimp only [Prod.map, id] at hrun ⊢
    rw [← hrun]
    cases Session.runWith loop reader.width reader.settings.terminator (session, reader.keys) <;> rfl

omit [KeySource κ] in
theorem CallsMirror.closes (h : CallsMirror image)
    (hloop : ∀ width session keys,
      mapState (Prod.map (Session.mapTerminal image) id) (loop width session keys) =
        loop' width (Session.mapTerminal image session) keys) (raw : Bool) (reader : Reader τ κ) :
    Mirrors (mapTerminal image) (closeWith loop raw) (closeWith loop' raw) reader := by
  have hedit := h.edits hloop reader
  unfold Mirrors at hedit ⊢
  unfold closeWith
  rw [← hedit]
  cases editWith loop reader with
  | error failure last =>
    have hleave := h.restores raw last
    unfold Mirrors at hleave
    dsimp only [mapState]
    rw [← hleave]
    cases restore raw last <;> rfl
  | ok outcome last =>
    have hleave := h.restores raw last
    unfold Mirrors at hleave
    dsimp only [mapState]
    rw [← hleave]
    cases restore raw last <;> rfl

omit [KeySource κ] in
/-- **A line ends on the image of the terminal as it does on the terminal.** -/
theorem CallsMirror.readsLine (h : CallsMirror image)
    (hloop : ∀ width session keys,
      mapState (Prod.map (Session.mapTerminal image) id) (loop width session keys) =
        loop' width (Session.mapTerminal image session) keys) (reader : Reader τ κ) :
    Mirrors (mapTerminal image) (readLineWith loop) (readLineWith loop') reader := by
  have henter := h.enters reader
  have hsame : (mapTerminal image reader).exhausted = reader.exhausted := rfl
  unfold Mirrors at henter ⊢
  unfold readLineWith
  rw [hsame]
  by_cases hexhausted : reader.exhausted = true
  · rw [if_pos hexhausted, if_pos hexhausted]
    rfl
  · rw [if_neg hexhausted, if_neg hexhausted, ← henter]
    cases Reader.enterRawMode reader with
    | error failure next => rfl
    | ok raw next => exact h.closes hloop raw next

/-! ## A line with notes -/

/-- Read one line, with a note of all that the source of keys hands out. -/
def readLineNoting (note : Except Failure Key → τ → τ) : Action (Reader τ κ) String :=
  readLineWith (Session.readKeysNoting note)

/-- **Without the notes, a line with notes is a line.** -/
theorem forgets_readLineNoting (h : CallsMirror image) {note : Except Failure Key → τ → τ}
    (hnote : ∀ answer terminal, image (note answer terminal) = image terminal) (reader : Reader τ κ) :
    Mirrors (mapTerminal image) (readLineNoting note) readLine reader := by
  rw [readLineNoting, ← readLineWith_readKeys]
  refine h.readsLine (fun width session keys => ?_) reader
  exact Session.forgets_readKeysNoting h.toCallsMirror hnote

omit [Terminal τ'] [KeySource κ] in
/-- A line ends as its session does, or no session can be made. -/
theorem editWith_ends {reader : Reader τ κ} {edited : τ → Prop} {broken : Failure → τ → Prop}
    (hstart : ∀ failure, broken failure reader.terminal)
    (hrun : ∀ session memory, Session.create reader.terminal reader.settings reader.memory =
        .ok session memory →
      Ends (Session.runWith loop reader.width reader.settings.terminator) (session, reader.keys)
        (fun _ last => edited last.1.terminal) fun failure last => broken failure last.1.terminal) :
    Ends (editWith loop) reader (fun _ last => edited last.terminal)
      fun failure last => broken failure last.terminal := by
  unfold Ends editWith
  cases hcreate : Session.create reader.terminal reader.settings reader.memory with
  | error failure memory => exact hstart failure
  | ok session memory =>
    have hends := hrun session memory hcreate
    dsimp only
    cases hend : Session.runWith loop reader.width reader.settings.terminator (session, reader.keys) with
    | ok outcome last => exact hends.of_ok hend
    | error failure last => exact hends.of_error hend

omit [Terminal τ'] in
/-- The line makes the change that every call and every note make. -/
theorem editNoting_has {change : Change Failure τ} (h : Session.CallsHave change)
    (hline : ∀ terminal failure, change.fails terminal failure terminal)
    {note : Except Failure Key → τ → τ} (hnotes : Session.NotesHave change note) :
    Has (change.along Reader.terminal)
      (editWith (Session.readKeysNoting note) : Action (Reader τ κ) Session.Outcome) := by
  intro reader
  refine editWith_ends (hline reader.terminal) fun session memory hcreate => ?_
  have hterminal : session.terminal = reader.terminal := Session.terminal_of_create hcreate
  have hloop := Session.readKeysNoting_has h hline hnotes reader.width session reader.keys
  rw [hterminal] at hloop
  exact Session.runWith_ends hloop
    fun last hlast => (h.finish reader.width reader.settings.terminator last).mono
      (fun _ _ => change.trans hlast) fun _ _ => change.fails_after hlast

omit [Terminal τ] [Terminal τ'] [KeySource κ] in
theorem ends_onTerminal {step : Action τ Unit} {reader : Reader τ κ} {passed : Unit → τ → Prop}
    {failed : Failure → τ → Prop} (h : Ends step reader.terminal passed failed) :
    Ends (onTerminal step) reader (fun value next => passed value next.terminal)
      fun failure next => failed failure next.terminal := by
  unfold Ends onTerminal within
  cases hstep : step reader.terminal with
  | ok value terminal => exact h.of_ok hstep
  | error failure terminal => exact h.of_error hstep

omit [Terminal τ'] [KeySource κ] in
/-- Leaving raw mode ends as it does on the terminal, where raw mode was entered. -/
theorem restore_ends {raw : Bool} {reader : Reader τ κ} {passed failed : τ → Prop}
    (hleave : raw = true →
      Ends Terminal.leaveRawMode reader.terminal (fun _ => passed) fun _ => failed)
    (hstay : raw = false → passed reader.terminal) :
    Ends (restore raw) reader (fun _ next => passed next.terminal) fun _ next => failed next.terminal := by
  cases raw with
  | false => exact ends_pure (hstay rfl)
  | true => exact ends_onTerminal (hleave rfl)

omit [Terminal τ'] [KeySource κ] in
/-- A line ends as leaving raw mode does behind it, and fails where the editing has failed. -/
theorem closeWith_leaves_behind {raw : Bool} {reader : Reader τ κ} {edited broken : τ → Prop}
    (passed failed : τ → Prop)
    (hedit : Ends (editWith loop) reader (fun _ last => edited last.terminal)
      fun _ last => broken last.terminal)
    (hedited : ∀ last : Reader τ κ, edited last.terminal →
      Ends (restore raw) last (fun _ next => passed next.terminal) fun _ next => failed next.terminal)
    (hbroken : ∀ last : Reader τ κ, broken last.terminal →
      Ends (restore raw) last (fun _ next => failed next.terminal) fun _ next => failed next.terminal) :
    Ends (closeWith loop raw) reader (fun _ next => passed next.terminal)
      fun _ next => failed next.terminal := by
  unfold Ends closeWith
  cases hrun : editWith loop reader with
  | error failure last =>
    have hlast := hbroken last (hedit.of_error hrun)
    dsimp only
    cases hleave : restore raw last with
    | ok _ next =>
      have hnext : failed next.terminal := hlast.of_ok hleave
      exact hnext
    | error other next =>
      have hnext : failed next.terminal := hlast.of_error hleave
      exact hnext
  | ok outcome last =>
    have hlast := hedited last (hedit.of_ok hrun)
    dsimp only
    cases hleave : restore raw last with
    | ok _ next =>
      have hnext : passed next.terminal := hlast.of_ok hleave
      exact hnext
    | error other next =>
      have hnext : failed next.terminal := hlast.of_error hleave
      exact hnext

omit [Terminal τ'] [KeySource κ] in
/-- A line ends as leaving raw mode does behind it. -/
theorem closeWith_ends {raw : Bool} {reader : Reader τ κ} (edited passed failed : τ → Prop)
    (hedit : Ends (editWith loop) reader (fun _ last => edited last.terminal)
      fun _ last => edited last.terminal)
    (hrestore : ∀ last : Reader τ κ, edited last.terminal →
      Ends (restore raw) last (fun _ next => passed next.terminal) fun _ next => failed next.terminal) :
    Ends (closeWith loop raw) reader (fun _ next => passed next.terminal)
      fun _ next => passed next.terminal ∨ failed next.terminal :=
  closeWith_leaves_behind passed (fun terminal => passed terminal ∨ failed terminal) hedit
    (fun last hlast => (hrestore last hlast).mono (fun _ _ => id) fun _ _ => .inr)
    fun last hlast => (hrestore last hlast).mono (fun _ _ => .inl) fun _ _ => .inr

omit [Terminal τ'] [KeySource κ] in
/-- **A line ends as it is closed**, once raw mode is entered or goes without it. -/
theorem readLineWith_ends {reader : Reader τ κ} (opened refused passed failed : τ → Prop)
    (hrefused : ∀ terminal, refused terminal → failed terminal) (hstart : refused reader.terminal)
    (henter : Ends Terminal.enterRawMode reader.terminal (fun _ => opened) fun _ => refused)
    (hraw : ∀ next : Reader τ κ, opened next.terminal →
      Ends (closeWith loop true) next (fun _ last => passed last.terminal) fun _ last => failed last.terminal)
    (hcooked : ∀ next : Reader τ κ, refused next.terminal →
      Ends (closeWith loop false) next (fun _ last => passed last.terminal)
        fun _ last => failed last.terminal) :
    Ends (readLineWith loop) reader (fun _ last => passed last.terminal)
      fun _ last => failed last.terminal := by
  have hmode := ends_onTerminal henter
  by_cases hexhausted : reader.exhausted = true
  · exact ends_of_error (if_pos hexhausted) (hrefused _ hstart)
  · have hline : readLineWith loop reader = _ := if_neg hexhausted
    cases hrun : onTerminal Terminal.enterRawMode reader with
    | ok _ next =>
      have hopened : enterRawMode reader = .ok true next := by rw [enterRawMode, hrun]
      have hclose := hraw next (hmode.of_ok hrun)
      unfold Ends
      rw [hline, hopened]
      exact hclose
    | error failure next =>
      have hnext : refused next.terminal := hmode.of_error hrun
      by_cases hdegraded : next.settings.allowsDegraded = true
      · have hopened : enterRawMode reader = .ok false { next with degraded := true } := by
          rw [enterRawMode, hrun]
          exact if_pos hdegraded
        have hclose := hcooked { next with degraded := true } hnext
        unfold Ends
        rw [hline, hopened]
        exact hclose
      · have hclosed : enterRawMode reader = .error failure next := by
          rw [enterRawMode, hrun]
          exact if_neg hdegraded
        rw [hclosed] at hline
        exact ends_of_error hline (hrefused _ hnext)

omit [Terminal τ'] in
/-- **What every call and every note keep, a line keeps.** -/
theorem readLineNoting_keeps {holds : τ → Prop} {note : Except Failure Key → τ → τ}
    (hcalls : Session.CallsHave (Change.keeping holds))
    (henter : Has (Change.keeping holds) (Terminal.enterRawMode : Action τ Unit))
    (hleave : Has (Change.keeping holds) (Terminal.leaveRawMode : Action τ Unit))
    (hnote : ∀ answer terminal, holds terminal → holds (note answer terminal))
    {reader : Reader τ κ} (h : holds reader.terminal) :
    Ends (readLineNoting note) reader (fun _ last => holds last.terminal)
      fun _ last => holds last.terminal := by
  have hnotes : Session.NotesHave (Change.keeping holds) note :=
    ⟨fun _ => hnote _, fun _ terminal _ => hnote _ terminal, fun _ terminal _ => hnote _ terminal⟩
  have hmode {step : Action τ Unit} (hstep : Has (Change.keeping holds) step) {terminal : τ}
      (hterminal : holds terminal) : Ends step terminal (fun _ => holds) fun _ => holds :=
    (hstep terminal).mono (fun _ _ hnext => hnext hterminal) fun _ _ hnext => hnext hterminal
  have hclose (raw : Bool) (next : Reader τ κ) (hnext : holds next.terminal) :
      Ends (closeWith (Session.readKeysNoting note) raw) next
        (fun _ last => holds last.terminal) fun _ last => holds last.terminal := by
    have hedit := editNoting_has hcalls (fun _ _ => id) hnotes next
    have hrestore (last : Reader τ κ) (hlast : holds last.terminal) :
        Ends (restore raw) last (fun _ last => holds last.terminal) fun _ last => holds last.terminal :=
      restore_ends (fun _ => hmode hleave hlast) fun _ => hlast
    exact closeWith_leaves_behind holds holds
      (hedit.mono (fun _ _ hlast => hlast hnext) fun _ _ hlast => hlast hnext) hrestore hrestore
  exact readLineWith_ends holds holds holds holds (fun _ h => h) h (hmode henter h) (hclose true)
    (hclose false)

omit [Terminal τ'] [KeySource κ] in
theorem exhausted_editWith (loop : Session.Loop τ κ) (reader : Reader τ κ) :
    (state (editWith loop reader)).exhausted = reader.exhausted := by
  unfold editWith
  split
  · rfl
  · split <;> rfl

end Reader

end LineEditor
