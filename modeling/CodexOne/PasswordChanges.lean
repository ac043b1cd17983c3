import CodexOne.Admin
import Mathlib.Data.List.Permutation

/-!
In which order password changes took effect.

A change reads the stored hash, checks the current password against it and writes the new hash
later. So it takes effect in order as long as no other change writes between its read and its
write. What a change has read, and what became of it, is remembered beside the run.
-/

namespace CodexOne

namespace Admin

open TransitionSystem

variable {σ : Type}

/-- What became of a change. It may have replaced the hash without being told so. -/
inductive Outcome where
  | refused
  | failed
  | replaced (hash : String) (acknowledged : Bool)
  deriving DecidableEq

structure Ended where
  call : ℕ
  current : String
  next : String
  outcome : Outcome
  deriving DecidableEq

/-- What the client was told. -/
def Outcome.answer : Outcome → ChangeCall
  | .replaced _ true => .updated
  | _ => .refused

/-- What a change has read: the passwords of its request, and the stored hash. -/
structure Read where
  current : String
  next : String
  hash : String

/-- What is remembered of the changes beside a run. -/
structure History where
  reads : ℕ → Option Read
  ended : List Ended

variable (store : SessionStore σ) (sec : Security) (sessionTTL : ℤ)

/-- The check that a change makes of a stored hash. -/
def Accepts (setting : Option String) (current next : String) : Prop :=
  ∃ hash, setting = some hash ∧ sec.checkPassword hash current = true ∧
    (Security.validatePassword next).isOk = true

instance (setting : Option String) (current next : String) :
    Decidable (Accepts sec setting current next) :=
  match setting with
  | none => isFalse (by simp [Accepts])
  | some hash => decidable_of_iff
      (sec.checkPassword hash current = true ∧ (Security.validatePassword next).isOk = true)
      (by simp [Accepts])

namespace History

def ends (h : History) (c : ℕ) (current next : String) (outcome : Outcome) : History :=
  { h with ended := h.ended ++ [⟨c, current, next, outcome⟩] }

/-- What is remembered after an event in a state. -/
def record (h : History) (s : Admin σ) : Event → History
  | .changeRead c current next .done =>
    match s.setting with
    | some hash =>
      if sec.checkPassword hash current ∧ (Security.validatePassword next).isOk then
        { h with reads := Function.update h.reads c (some ⟨current, next, hash⟩) }
      else h.ends c current next .refused
    | none => h.ends c current next .refused
  | .changeRead c current next _ => h.ends c current next .failed
  | .changeWrite c hash access =>
    match h.reads c with
    | some r => h.ends c r.current r.next (match access with
        | .done => .replaced hash true
        | .failed => .failed
        | .unacknowledged => .replaced hash false)
    | none => h
  | .changeFails c =>
    match h.reads c with
    | some r => h.ends c r.current r.next .failed
    | none => h
  | _ => h

end History

/-- The server with what is remembered of the changes. -/
def changes' (setting : String) (now : ℤ) : TransitionSystem (Admin σ × History) Event where
  start := ((system store sec sessionTTL setting now).start, ⟨fun _ => none, []⟩)
  step x e := (x.1.step store sec sessionTTL e).map fun t => (t, x.2.record sec x.1 e)

/-- Changes one after the other, from a stored hash to another one. -/
inductive Serial : Option String → List Ended → Option String → Prop
  | nil {setting} : Serial setting [] setting
  | refused {setting final c current next rest} (h : ¬Accepts sec setting current next)
      (hrest : Serial setting rest final) :
      Serial setting (⟨c, current, next, .refused⟩ :: rest) final
  | failed {setting final c current next rest} (hrest : Serial setting rest final) :
      Serial setting (⟨c, current, next, .failed⟩ :: rest) final
  | replaced {setting final c current next hash acknowledged rest}
      (h : Accepts sec setting current next) (hrest : Serial (some hash) rest final) :
      Serial setting (⟨c, current, next, .replaced hash acknowledged⟩ :: rest) final

/-- The changes took effect in some order: one in which each check is of the hash that is stored
then, and at whose end is the stored hash. -/
def Serializable (setting : Option String) (x : Admin σ × History) : Prop :=
  ∃ order, order.Perm x.2.ended ∧ Serial sec setting order x.1.setting

/-- A write that reaches the store finds a hash that the current password of its change still
matches. -/
def Undisturbed (x : Admin σ × History) : Event → Prop
  | .changeWrite _ _ .failed => True
  | .changeWrite c _ _ => ∀ r ∈ x.2.reads c, ∃ hash ∈ x.1.setting,
      sec.checkPassword hash r.current = true
  | _ => True

/-- The change whose hash is stored by the event. -/
def Event.storedBy : Event → Option ℕ
  | .changeWrite c _ .done => some c
  | .changeWrite c _ .unacknowledged => some c
  | _ => none

/-- Between the read of a change and its write no other change writes. Writes that do not reach the
store do not count. -/
def Uninterrupted (es : List Event) : Prop :=
  ∀ c d current next access write other, d ≠ c → other.storedBy = some d →
    write.storedBy = some c → ¬[.changeRead c current next access, other, write].Sublist es

variable {store sec sessionTTL} {s t : Admin σ} {h : History}

lemma changes_setChange (s : Admin σ) (c c' : ℕ) (call : ChangeCall) :
    (s.setChange c call).changes c' = if c' = c then call else s.changes c' :=
  Function.update_apply ..

lemma putSession_changes (s : Admin σ) (token hash : String) :
    (s.putSession store sec sessionTTL token hash).1.setting = s.setting ∧
      (s.putSession store sec sessionTTL token hash).1.changes = s.changes := by
  unfold putSession
  dsimp only
  split <;> exact ⟨rfl, rfl⟩

lemma loginPut_changes (s : Admin σ) (l : ℕ) (token hash : String) (access : Access) :
    (s.loginPut store sec sessionTTL l token hash access).setting = s.setting ∧
      (s.loginPut store sec sessionTTL l token hash access).changes = s.changes := by
  have hput : (putSession store sec sessionTTL { s with tokens := token :: s.tokens } token
      hash).1.setting = s.setting ∧ (putSession store sec sessionTTL
        { s with tokens := token :: s.tokens } token hash).1.changes = s.changes :=
    putSession_changes _ token hash
  cases access with
  | done =>
    simp only [Admin.loginPut]
    split
    all_goals
      rename_i heq
      rw [heq] at hput
      exact hput
  | failed => exact ⟨rfl, rfl⟩
  | unacknowledged => exact hput

lemma step_changes {e : Event} (hstep : s.step store sec sessionTTL e = some t) :
    match e with
    | .changeRead c current next access =>
      s.changes c = .notCalled ∧ t = s.changeRead sec c current next access
    | .changeWrite c hash access =>
      (∃ next, s.changes c = .verified next) ∧ t = s.changeWrite c hash access
    | .changeFails c => (∃ next, s.changes c = .verified next) ∧ t = s.setChange c .refused
    | _ => t.setting = s.setting ∧ t.changes = s.changes := by
  cases e with
  | loginRead l password access =>
    simp only [step] at hstep
    split at hstep <;> cases hstep
    unfold loginRead
    cases access with
    | done => dsimp only; split <;> exact ⟨rfl, rfl⟩
    | failed => exact ⟨rfl, rfl⟩
    | unacknowledged => exact ⟨rfl, rfl⟩
  | loginPut l token access =>
    simp only [step] at hstep
    split at hstep
    · split_ifs at hstep
      cases hstep
      exact loginPut_changes s l token _ access
    · cases hstep
  | loginFails l =>
    simp only [step] at hstep
    split at hstep <;> cases hstep
    exact ⟨rfl, rfl⟩
  | logout token access =>
    cases hstep
    cases access <;> exact ⟨rfl, rfl⟩
  | changeRead c current next access =>
    simp only [step] at hstep
    split at hstep <;> cases hstep
    exact ⟨‹_›, rfl⟩
  | changeWrite c hash access =>
    simp only [step] at hstep
    split at hstep
    · split_ifs at hstep
      cases hstep
      exact ⟨⟨_, ‹_›⟩, rfl⟩
    · cases hstep
  | changeFails c =>
    simp only [step] at hstep
    split at hstep <;> cases hstep
    exact ⟨⟨_, ‹_›⟩, rfl⟩
  | check c token access =>
    simp only [step] at hstep
    split at hstep <;> cases hstep
    unfold check
    cases access with
    | done => dsimp only; split <;> exact ⟨rfl, rfl⟩
    | failed => exact ⟨rfl, rfl⟩
    | unacknowledged => exact ⟨rfl, rfl⟩
  | checkSetting c access =>
    simp only [step] at hstep
    split at hstep <;> cases hstep
    unfold checkSetting
    cases access with
    | done => dsimp only; split <;> exact ⟨rfl, rfl⟩
    | failed => exact ⟨rfl, rfl⟩
    | unacknowledged => exact ⟨rfl, rfl⟩
  | tick d =>
    cases hstep
    exact ⟨rfl, rfl⟩

/-! ### The log -/

/-- Every change that has ended is in the log once, with what its client was told, and the others
have read what they are going to replace. -/
structure Recorded (sec : Security) (x : Admin σ × History) : Prop where
  told : ∀ e ∈ x.2.ended, x.1.changes e.call = e.outcome.answer
  nodup : (x.2.ended.map Ended.call).Nodup
  all : ∀ c, x.1.changes c = .updated ∨ x.1.changes c = .refused → ∃ e ∈ x.2.ended, e.call = c
  verified : ∀ c next, x.1.changes c = .verified next →
    ∃ r, x.2.reads c = some r ∧ Accepts sec (some r.hash) r.current r.next

def Open (s : Admin σ) (c : ℕ) : Prop :=
  s.changes c = .notCalled ∨ ∃ next, s.changes c = .verified next

lemma answer_cases (o : Outcome) : o.answer = .updated ∨ o.answer = .refused := by
  cases o with
  | replaced hash acknowledged => cases acknowledged <;> simp [Outcome.answer]
  | _ => exact .inr rfl

lemma Open.ne_answer {c : ℕ} (h : Open s c) (o : Outcome) : s.changes c ≠ o.answer := fun he => by
  rcases h with h | ⟨next, h⟩ <;> rcases answer_cases o with ho | ho <;> rw [h, ho] at he <;>
    cases he

lemma Recorded.ends (hx : Recorded sec (s, h)) {c : ℕ} {current next : String} {o : Outcome}
    (hopen : Open s c) (ht : t.changes = Function.update s.changes c o.answer) :
    Recorded sec (t, h.ends c current next o) := by
  have hnew : ∀ e ∈ h.ended, e.call ≠ c := fun e he hc =>
    hopen.ne_answer e.outcome (hc ▸ hx.told e he)
  refine ⟨fun e he => ?_, ?_, fun c' hc' => ?_, fun c' next' hc' => ?_⟩
  · dsimp only [History.ends] at he ⊢
    rw [ht]
    rcases List.mem_append.mp he with he | he
    · rw [Function.update_of_ne (hnew e he)]
      exact hx.told e he
    · rw [List.mem_singleton.mp he]
      exact Function.update_self ..
  · dsimp only [History.ends]
    rw [List.map_append, List.nodup_append]
    refine ⟨hx.nodup, by simp, fun a ha b hb hab => ?_⟩
    obtain ⟨e, he, rfl⟩ := List.mem_map.mp ha
    rw [List.map_singleton, List.mem_singleton] at hb
    exact hnew e he (hab.trans hb)
  · dsimp only [History.ends] at hc' ⊢
    by_cases hcc : c' = c
    · exact ⟨_, List.mem_append_right _ (List.mem_singleton_self _), hcc.symm⟩
    · rw [ht, Function.update_of_ne hcc] at hc'
      obtain ⟨e, he, hec⟩ := hx.all c' hc'
      exact ⟨e, List.mem_append_left _ he, hec⟩
  · dsimp only at hc'
    by_cases hcc : c' = c
    · rw [ht, hcc, Function.update_self] at hc'
      rcases answer_cases o with ho | ho <;> rw [ho] at hc' <;> cases hc'
    · rw [ht, Function.update_of_ne hcc] at hc'
      exact hx.verified c' next' hc'

lemma Recorded.congr (hx : Recorded sec (s, h)) (ht : t.changes = s.changes) :
    Recorded sec (t, h) :=
  ⟨fun e he => by rw [ht]; exact hx.told e he, hx.nodup, fun c hc => hx.all c (by rwa [ht] at hc),
    fun c next hc => hx.verified c next (by rwa [ht] at hc)⟩

lemma Recorded.read (hx : Recorded sec (s, h)) {c : ℕ} {current next hash : String}
    (hopen : Open s c) (hok : Accepts sec (some hash) current next) :
    Recorded sec (s.setChange c (.verified next),
      { h with reads := Function.update h.reads c (some ⟨current, next, hash⟩) }) := by
  have hnew : ∀ e ∈ h.ended, e.call ≠ c := fun e he hc =>
    hopen.ne_answer e.outcome (hc ▸ hx.told e he)
  refine ⟨fun e he => ?_, hx.nodup, fun c' hc' => ?_, fun c' next' hc' => ?_⟩
  · rw [changes_setChange, if_neg (hnew e he)]
    exact hx.told e he
  · rw [changes_setChange] at hc'
    split_ifs at hc'
    · simp at hc'
    · exact hx.all c' hc'
  · dsimp only at hc' ⊢
    rw [changes_setChange] at hc'
    by_cases hcc : c' = c
    · rw [hcc, Function.update_self]
      exact ⟨_, rfl, hok⟩
    · rw [if_neg hcc] at hc'
      rw [Function.update_of_ne hcc]
      exact hx.verified c' next' hc'

lemma Serial.concat {a b c : Option String} {log : List Ended} {e : Ended}
    (h : Serial sec a log b) (he : Serial sec b [e] c) : Serial sec a (log ++ [e]) c := by
  induction h with
  | nil => exact he
  | refused hno _ ih => exact .refused hno (ih he)
  | failed _ ih => exact .failed (ih he)
  | replaced hok _ ih => exact .replaced hok (ih he)

/-- What the history of a state says of the stored hash. -/
structure Ordered (sec : Security) (setting : String) (x : Admin σ × History) : Prop where
  recorded : Recorded sec x
  serial : Serial sec (some setting) x.2.ended x.1.setting

variable {setting : String}

section read

variable {c : ℕ} {current next : String}

lemma changeRead_accepts (hok : Accepts sec s.setting current next) :
    s.changeRead sec c current next .done = s.setChange c (.verified next) := by
  obtain ⟨hash, hset, hcheck⟩ := hok
  simp only [changeRead, hset]
  rw [if_pos hcheck]

lemma record_accepts (hok : Accepts sec s.setting current next) :
    h.record sec s (.changeRead c current next .done) =
      { h with reads := Function.update h.reads c (some ⟨current, next, s.setting.getD ""⟩) } := by
  obtain ⟨hash, hset, hcheck⟩ := hok
  simp only [History.record, hset]
  rw [if_pos hcheck, Option.getD_some]

lemma changeRead_refuses (hok : ¬Accepts sec s.setting current next) :
    s.changeRead sec c current next .done = s.setChange c .refused := by
  unfold changeRead
  cases hset : s.setting with
  | none => rfl
  | some hash =>
    dsimp only
    rw [if_neg fun hcheck => hok ⟨hash, hset, hcheck⟩]

lemma record_refuses (hok : ¬Accepts sec s.setting current next) :
    h.record sec s (.changeRead c current next .done) = h.ends c current next .refused := by
  unfold History.record
  cases hset : s.setting with
  | none => rfl
  | some hash =>
    dsimp only
    rw [if_neg fun hcheck => hok ⟨hash, hset, hcheck⟩]

end read

lemma Ordered.step {now : ℤ} {e : Event} {x y : Admin σ × History} (hx : Ordered sec setting x)
    (hgood : Undisturbed sec x e)
    (hstep : (changes' store sec sessionTTL setting now).step x e = some y) :
    Ordered sec setting y := by
  obtain ⟨s, h⟩ := x
  obtain ⟨t, ht, rfl⟩ := Option.map_eq_some_iff.mp hstep
  have hcase := step_changes ht
  have hother (hset : t.setting = s.setting) (hch : t.changes = s.changes) :
      Ordered sec setting (t, h) :=
    ⟨hx.recorded.congr hch, by dsimp only; rw [hset]; exact hx.serial⟩
  -- a change that ends: what its client is told, and where it stands in the order
  have hends {c current next} {o : Outcome} (hopen : Open s c)
      (hch : t.changes = Function.update s.changes c o.answer)
      (hone : Serial sec s.setting [⟨c, current, next, o⟩] t.setting) :
      Ordered sec setting (t, h.ends c current next o) :=
    ⟨hx.recorded.ends hopen hch, hx.serial.concat hone⟩
  cases e with
  | changeRead c current next access =>
    obtain ⟨hnot, rfl⟩ := hcase
    cases access with
    | done =>
      by_cases hok : Accepts sec s.setting current next
      · rw [changeRead_accepts hok, record_accepts hok]
        obtain ⟨hash, hset, hcheck⟩ := hok
        rw [hset, Option.getD_some]
        exact ⟨hx.recorded.read (.inl hnot) ⟨hash, rfl, hcheck⟩, hx.serial⟩
      · rw [changeRead_refuses hok, record_refuses hok] at *
        exact hends (.inl hnot) rfl (.refused hok .nil)
    | failed => exact hends (.inl hnot) rfl (.failed .nil)
    | unacknowledged => exact hends (.inl hnot) rfl (.failed .nil)
  | changeWrite c hash access =>
    obtain ⟨⟨next, hver⟩, rfl⟩ := hcase
    obtain ⟨r, hr, -, -, -, hnext⟩ := hx.recorded.verified c next hver
    dsimp only [History.record]
    rw [hr]
    have hwrite (hfound : ∀ r ∈ h.reads c, ∃ hash ∈ s.setting,
        sec.checkPassword hash r.current = true) : Accepts sec s.setting r.current r.next := by
      obtain ⟨hash, hset, hcheck⟩ := hfound r hr
      exact ⟨hash, hset, hcheck, hnext⟩
    cases access with
    | done => exact hends (.inr ⟨next, hver⟩) rfl (.replaced (hwrite hgood) .nil)
    | failed => exact hends (.inr ⟨next, hver⟩) rfl (.failed .nil)
    | unacknowledged => exact hends (.inr ⟨next, hver⟩) rfl (.replaced (hwrite hgood) .nil)
  | changeFails c =>
    obtain ⟨⟨next, hver⟩, rfl⟩ := hcase
    obtain ⟨r, hr, -⟩ := hx.recorded.verified c next hver
    dsimp only [History.record]
    rw [hr]
    exact hends (.inr ⟨next, hver⟩) rfl (.failed .nil)
  | loginRead => exact hother hcase.1 hcase.2
  | loginPut => exact hother hcase.1 hcase.2
  | loginFails => exact hother hcase.1 hcase.2
  | logout => exact hother hcase.1 hcase.2
  | check => exact hother hcase.1 hcase.2
  | checkSetting => exact hother hcase.1 hcase.2
  | tick => exact hother hcase.1 hcase.2

/-! ### Schedules -/

/-- What the events so far say of a change that is going to write: it has read, and the hash that it
has read is still stored unless another change has written since. -/
def Current (ds : List Event) (x : Admin σ × History) : Prop :=
  ∀ c next, x.1.changes c = .verified next → ∃ r, x.2.reads c = some r ∧
    ∃ current next access, .changeRead c current next access ∈ ds ∧
      (x.1.setting = some r.hash ∨ ∃ d other, d ≠ c ∧ other.storedBy = some d ∧
        [.changeRead c current next access, other].Sublist ds)

/-- What a step does to a change, to what it has read and to the stored hash. -/
lemma Current.keep {ds : List Event} {e : Event} {x y : Admin σ × History} (hx : Current ds x)
    (hreads : ∀ c next, y.1.changes c = .verified next →
      x.1.changes c = .verified next ∧ y.2.reads c = x.2.reads c)
    (hset : y.1.setting = x.1.setting ∨ ∃ d, e.storedBy = some d ∧
      ∀ c next, y.1.changes c = .verified next → d ≠ c) : Current (ds ++ [e]) y := by
  intro c next hver
  obtain ⟨hold, hread⟩ := hreads c next hver
  obtain ⟨r, hr, current, next', access, hmem, hhash⟩ := hx c next hold
  refine ⟨r, hread.trans hr, current, next', access, List.mem_append_left _ hmem, ?_⟩
  rcases hhash with hhash | ⟨d, other, hne, hother, hsub⟩
  · rcases hset with hset | ⟨d, hd, hne⟩
    · exact .inl (hset.trans hhash)
    · -- the step writes the hash of another change
      exact .inr ⟨d, e, hne c next hver, hd,
        (List.singleton_sublist.mpr hmem).append (.refl [e])⟩
  · exact .inr ⟨d, other, hne, hother, hsub.trans (List.sublist_append_left _ _)⟩

lemma Current.undisturbed {ds : List Event} {e : Event} {x : Admin σ × History}
    (hx : Current ds x) (hrec : Recorded sec x) (hgood : Uninterrupted (ds ++ [e]))
    (hstep : (x.1.step store sec sessionTTL e) = some t) : Undisturbed sec x e := by
  have hwrite {c : ℕ} {hash : String} {access : Access} (he : e = .changeWrite c hash access)
      (hstores : e.storedBy = some c) :
      ∀ r ∈ x.2.reads c, ∃ hash ∈ x.1.setting, sec.checkPassword hash r.current = true := by
    intro r hr
    rw [he] at hstep
    have hcase := step_changes hstep
    obtain ⟨⟨next, hver⟩, -⟩ := hcase
    obtain ⟨r', hr', hcheck⟩ := hrec.verified c next hver
    obtain ⟨r'', hr'', current, next', access', hmem, hhash⟩ := hx c next hver
    obtain rfl := Option.some.inj (hr'.symm.trans hr)
    obtain rfl := Option.some.inj (hr'.symm.trans hr'')
    rcases hhash with hhash | ⟨d, other, hne, hother, hsub⟩
    · obtain ⟨hash', heq, hcheck, -⟩ := hcheck
      exact ⟨hash', hhash.trans heq, hcheck⟩
    · exact absurd (hsub.append (.refl [e]))
        (hgood c d current next' access' e other hne hother hstores)
  cases e with
  | changeWrite c hash access =>
    cases access with
    | done => exact hwrite rfl rfl
    | failed => trivial
    | unacknowledged => exact hwrite rfl rfl
  | _ => trivial

lemma Current.read {ds : List Event} {c : ℕ} {current next : String} (hx : Current ds (s, h))
    (hok : Accepts sec s.setting current next) :
    Current (ds ++ [.changeRead c current next .done]) (s.setChange c (.verified next),
      { h with reads := Function.update h.reads c (some ⟨current, next, s.setting.getD ""⟩) }) := by
  obtain ⟨hash, hset, -⟩ := hok
  intro c' n (hver : (s.setChange c (.verified next)).changes c' = .verified n)
  by_cases hcc : c' = c
  · -- the change that has just read
    subst hcc
    refine ⟨_, Function.update_self .., current, next, .done, by simp, .inl ?_⟩
    show s.setting = some (s.setting.getD "")
    rw [hset, Option.getD_some]
  · rw [changes_setChange, if_neg hcc] at hver
    obtain ⟨r, hr, current', next', access', hmem, hhash⟩ := hx c' n hver
    refine ⟨r, (Function.update_of_ne hcc ..).trans hr, current', next', access',
      List.mem_append_left _ hmem, hhash.imp_right ?_⟩
    rintro ⟨d, other, hne, hother, hsub⟩
    exact ⟨d, other, hne, hother, hsub.trans (List.sublist_append_left _ _)⟩

lemma Current.step {now : ℤ} {ds : List Event} {e : Event} {x y : Admin σ × History}
    (hx : Current ds x) (hrec : Recorded sec x)
    (hstep : (changes' store sec sessionTTL setting now).step x e = some y) :
    Current (ds ++ [e]) y := by
  obtain ⟨s, h⟩ := x
  obtain ⟨t, ht, rfl⟩ := Option.map_eq_some_iff.mp hstep
  have hcase := step_changes ht
  have hother (hset : t.setting = s.setting) (hch : t.changes = s.changes) :
      Current (ds ++ [e]) (t, h) :=
    hx.keep (fun c next hver => ⟨hch ▸ hver, rfl⟩) (.inl hset)
  -- a change that ends is not going to write
  have hends {c current next} {o : Outcome} (call : ChangeCall) (hcall : ∀ n, call ≠ .verified n)
      (hch : t.changes = Function.update s.changes c call)
      (hset : t.setting = s.setting ∨ e.storedBy = some c) :
      Current (ds ++ [e]) (t, h.ends c current next o) := by
    have hne : ∀ c' n, t.changes c' = .verified n → c' ≠ c := by
      rintro c' n hver rfl
      rw [hch, Function.update_self] at hver
      exact hcall n hver
    refine hx.keep (fun c' n hver => ⟨?_, rfl⟩) (hset.imp_right fun hstored => ⟨c, hstored, ?_⟩)
    · have hver' : t.changes c' = .verified n := hver
      rwa [hch, Function.update_of_ne (hne c' n hver)] at hver'
    · exact fun c' n hver => (hne c' n hver).symm
  cases e with
  | changeRead c current next access =>
    obtain ⟨hnot, rfl⟩ := hcase
    cases access with
    | done =>
      by_cases hok : Accepts sec s.setting current next
      · rw [changeRead_accepts hok, record_accepts hok]
        exact hx.read hok
      · rw [changeRead_refuses hok, record_refuses hok] at *
        exact hends .refused (by simp) rfl (.inl rfl)
    | failed => exact hends .refused (by simp) rfl (.inl rfl)
    | unacknowledged => exact hends .refused (by simp) rfl (.inl rfl)
  | changeWrite c hash access =>
    obtain ⟨⟨next, hver⟩, rfl⟩ := hcase
    obtain ⟨r, hr, -⟩ := hrec.verified c next hver
    dsimp only [History.record]
    rw [hr]
    cases access with
    | done => exact hends .updated (by simp) rfl (.inr rfl)
    | failed => exact hends .refused (by simp) rfl (.inl rfl)
    | unacknowledged => exact hends .refused (by simp) rfl (.inr rfl)
  | changeFails c =>
    obtain ⟨⟨next, hver⟩, rfl⟩ := hcase
    obtain ⟨r, hr, -⟩ := hrec.verified c next hver
    dsimp only [History.record]
    rw [hr]
    exact hends .refused (by simp) rfl (.inl rfl)
  | loginRead => exact hother hcase.1 hcase.2
  | loginPut => exact hother hcase.1 hcase.2
  | loginFails => exact hother hcase.1 hcase.2
  | logout => exact hother hcase.1 hcase.2
  | check => exact hother hcase.1 hcase.2
  | checkSetting => exact hother hcase.1 hcase.2
  | tick => exact hother hcase.1 hcase.2

lemma Ordered.run {now : ℤ} {es : List Event} {x : Admin σ × History} (hgood : Uninterrupted es)
    (hrun : (changes' store sec sessionTTL setting now).run
      (changes' store sec sessionTTL setting now).start es = some x) : Ordered sec setting x := by
  refine (run_invariant_events (fun ds x => Ordered sec setting x ∧ Current ds x)
    (fun ds x e y hx hsub hstep => ?_) ⟨⟨⟨by simp [changes'], by simp [changes'], by
      simp [changes', system], by simp [changes', system]⟩, .nil⟩, fun c next hver => ?_⟩ hrun).1
  · obtain ⟨t, ht, -⟩ := Option.map_eq_some_iff.mp hstep
    have hsofar : Uninterrupted (ds ++ [e]) :=
      fun c d _ _ _ _ _ hne ho hw htriple => hgood c d _ _ _ _ _ hne ho hw (htriple.trans hsub)
    exact ⟨hx.1.step (hx.2.undisturbed hx.1.recorded hsofar ht) hstep,
      hx.2.step hx.1.recorded hstep⟩
  · cases hver

end Admin

open Admin

/-- **Password changes are serializable.** In every run in which no other change writes between the
read of a change and its write: every change that has ended did so once and with what its client was
told, and the changes and the stored hash are those of a serial order, the one in which they
ended. -/
theorem password_changes_serializable {σ : Type} (store : SessionStore σ) (sec : Security)
    (sessionTTL : ℤ) (setting : String) (now : ℤ) (es : List Event) (x : Admin σ × History)
    (hgood : Uninterrupted es)
    (hrun : (changes' store sec sessionTTL setting now).run
      (changes' store sec sessionTTL setting now).start es = some x) :
    Recorded sec x ∧ Serializable sec (some setting) x ∧
      Serial sec (some setting) x.2.ended x.1.setting := by
  have h := Ordered.run hgood hrun
  exact ⟨h.recorded, ⟨x.2.ended, .refl _, h.serial⟩, h.serial⟩

def sampleChanges : TransitionSystem (Admin MemoryStore × History) Event :=
  changes' (memoryStore 4096) sampleSecurity 86400 "$2a$10$old" 1000

/-- Two changes have read the old password. The write of one fails, so the other one replaces the
password, and a third one that reads afterwards is refused. -/
def changesInTurn : List Event :=
  [.changeRead 0 "the old password" "the new password" .done,
    .changeRead 1 "the old password" "another password" .done,
    .changeWrite 1 "$2a$10$another" .failed, .changeWrite 0 "$2a$10$new" .done,
    .changeRead 2 "the old password" "another password" .done]

lemma uninterrupted_changesInTurn : Uninterrupted changesInTurn := by
  intro c d current next access write other _ hother hwrite hsub
  have hwrites := (List.sublist_of_cons_sublist hsub).filter fun e => e.storedBy.isSome
  rw [List.filter_cons_of_pos (by rw [hother]; rfl), List.filter_cons_of_pos (by rw [hwrite]; rfl)]
    at hwrites
  have hone : (changesInTurn.filter fun e => e.storedBy.isSome).length = 1 := rfl
  have htwo := hwrites.length_le
  rw [hone, List.length_cons, List.length_cons] at htwo
  omega

theorem password_changes_serializable_sample :
    ∃ x, sampleChanges.run sampleChanges.start changesInTurn = some x ∧
      x.2.ended.map Ended.outcome = [.failed, .replaced "$2a$10$new" true, .refused] ∧
      Serializable sampleSecurity (some "$2a$10$old") x := by
  have hrun : ((sampleChanges.run sampleChanges.start changesInTurn).any fun x =>
      x.2.ended.map Ended.outcome == [.failed, .replaced "$2a$10$new" true, .refused]) = true := by
    decide
  obtain ⟨x, hx, hended⟩ := (Option.any_eq_true _ _).mp hrun
  exact ⟨x, hx, beq_iff_eq.mp hended, (password_changes_serializable (memoryStore 4096)
    sampleSecurity 86400 "$2a$10$old" 1000 changesInTurn x uninterrupted_changesInTurn hx).2.1⟩

lemma updated_of_matches {call : ChangeCall} (h : (call matches .updated) = true) :
    call = .updated := by
  cases call <;> first | rfl | cases h

/-- Two changes that have checked the old password before either writes. -/
def changesAtOnce : List Event :=
  [.changeRead 0 "the old password" "the new password" .done,
    .changeRead 1 "the old password" "another password" .done,
    .changeWrite 0 "$2a$10$new" .done, .changeWrite 1 "$2a$10$another" .done]

/-- Both are told that they replaced the password, and no order accounts for it. -/
theorem password_changes_at_once :
    ∃ x, sampleChanges.run sampleChanges.start changesAtOnce = some x ∧
      x.1.changes 0 = .updated ∧ x.1.changes 1 = .updated ∧
      ¬Serializable sampleSecurity (some "$2a$10$old") x := by
  have hrun : ((sampleChanges.run sampleChanges.start changesAtOnce).any fun x =>
      (x.1.changes 0 matches .updated) && (x.1.changes 1 matches .updated) && x.2.ended ==
        [⟨0, "the old password", "the new password", .replaced "$2a$10$new" true⟩,
          ⟨1, "the old password", "another password", .replaced "$2a$10$another" true⟩]) =
        true := by
    decide
  obtain ⟨x, hx, hall⟩ := (Option.any_eq_true _ _).mp hrun
  simp only [Bool.and_eq_true, beq_iff_eq] at hall
  obtain ⟨⟨h0, h1⟩, hended⟩ := hall
  refine ⟨x, hx, updated_of_matches h0, updated_of_matches h1, ?_⟩
  rintro ⟨order, hperm, hserial⟩
  rw [hended, List.perm_pair] at hperm
  have hnot : ∀ hash ∈ ["$2a$10$new", "$2a$10$another"], ∀ next,
      ¬Accepts sampleSecurity (some hash) "the old password" next := by
    rintro hash hmem next ⟨_, ⟨⟩, hcheck, -⟩
    simp only [List.mem_cons, List.not_mem_nil, or_false] at hmem
    rcases hmem with rfl | rfl <;> exact absurd hcheck (by decide)
  -- in either order the later change does not accept the hash of the earlier one
  rcases hperm with rfl | rfl
  · cases hserial with
    | replaced _ hrest =>
      cases hrest with
      | replaced h _ => exact hnot _ (by simp) _ h
  · cases hserial with
    | replaced _ hrest =>
      cases hrest with
      | replaced h _ => exact hnot _ (by simp) _ h

end CodexOne
