import CodexOne.APIKeys
import CodexOne.DayRange
import CodexOne.Truncation

/-!
The log of the requests, in the database beside the keys.

An entry is inserted for each request, and the cleanup deletes the old ones. A range of time is
answered with its totals and with its newest entries, each with the name of its key. The averages,
which are floating-point numbers, are left out.
-/

namespace CodexOne

open DayRange Truncation

instance (range : ℤ × ℤ) (createdAt : ℤ) : Decidable (Counts range createdAt) :=
  inferInstanceAs (Decidable (_ ∧ _))

/-- `store.TodayStats`, without the rates. -/
@[ext]
structure TodayStats where
  requests : ℤ
  successes : ℤ
  inputTokens : ℤ
  outputTokens : ℤ
  reasoningTokens : ℤ
  deriving DecidableEq

namespace TodayStats

instance : Zero TodayStats := ⟨⟨0, 0, 0, 0, 0⟩⟩

instance : Add TodayStats := ⟨fun a b =>
  { requests := a.requests + b.requests
    successes := a.successes + b.successes
    inputTokens := a.inputTokens + b.inputTokens
    outputTokens := a.outputTokens + b.outputTokens
    reasoningTokens := a.reasoningTokens + b.reasoningTokens }⟩

lemma add_def (a b : TodayStats) : a + b = ⟨a.requests + b.requests, a.successes + b.successes,
    a.inputTokens + b.inputTokens, a.outputTokens + b.outputTokens,
    a.reasoningTokens + b.reasoningTokens⟩ := rfl

lemma zero_def : (0 : TodayStats) = ⟨0, 0, 0, 0, 0⟩ := rfl

instance : AddCommMonoid TodayStats where
  add_assoc a b c := by ext <;> simp only [add_def] <;> omega
  zero_add a := by ext <;> simp only [add_def, zero_def] <;> omega
  add_zero a := by ext <;> simp only [add_def, zero_def] <;> omega
  add_comm a b := by ext <;> simp only [add_def] <;> omega
  nsmul := nsmulRec

/-- What `TodayStats` selects of the rows of its range. -/
def of (rows : List RequestLog) : TodayStats where
  requests := rows.length
  successes := rows.countP fun r => 200 ≤ r.status ∧ r.status < 300
  inputTokens := (rows.map (·.inputTokens)).sum
  outputTokens := (rows.map (·.outputTokens)).sum
  reasoningTokens := (rows.map (·.reasoningTokens)).sum

@[simp] lemma of_nil : of [] = 0 := rfl

lemma of_cons (r : RequestLog) (rows : List RequestLog) : of (r :: rows) = of [r] + of rows := by
  simp only [of, add_def, List.length_cons, List.length_nil, List.countP_cons, List.countP_nil,
    List.map_cons, List.map_nil, List.sum_cons, List.sum_nil]
  congr 1 <;> push_cast <;> ring

lemma of_split (rows : List RequestLog) {a b c : ℤ} (hab : a ≤ b) (hbc : b ≤ c) :
    of (rows.filter fun r => Counts (a, b) r.createdAt) +
      of (rows.filter fun r => Counts (b, c) r.createdAt) =
        of (rows.filter fun r => Counts (a, c) r.createdAt) := by
  induction rows with
  | nil => rfl
  | cons r rows ih =>
    have hall : Counts (a, c) r.createdAt ↔
        Counts (a, b) r.createdAt ∨ Counts (b, c) r.createdAt := by
      unfold Counts
      omega
    have hnot : ¬(Counts (a, b) r.createdAt ∧ Counts (b, c) r.createdAt) := by
      unfold Counts
      omega
    by_cases hlow : Counts (a, b) r.createdAt
    · have hhigh : ¬Counts (b, c) r.createdAt := fun hhigh => hnot ⟨hlow, hhigh⟩
      simp only [List.filter_cons, hall, hlow, hhigh, or_false, decide_true, decide_false, if_true,
        Bool.false_eq_true, if_false]
      rw [of_cons, of_cons r (rows.filter fun x => Counts (a, c) x.createdAt), add_assoc, ih]
    · by_cases hhigh : Counts (b, c) r.createdAt
      · simp only [List.filter_cons, hall, hlow, hhigh, false_or, decide_true, decide_false,
          if_true, Bool.false_eq_true, if_false]
        rw [of_cons, of_cons r (rows.filter fun x => Counts (a, c) x.createdAt), add_left_comm, ih]
      · simp only [List.filter_cons, hall, hlow, hhigh, or_self, decide_false, Bool.false_eq_true,
          if_false]
        exact ih

end TodayStats

/-- The tables `api_keys` and `request_logs`, with the primary key of the latter and its reference
to the former. -/
structure Database where
  keys : APIKeys
  rows : List RequestLog
  ids : (rows.map (·.id)).Nodup
  owners : ∀ r ∈ rows, r.apiKeyID = "" ∨ r.apiKeyID ∈ keys.rows.map (·.id)

lemma APIKeys.names_step (sec : Security) {t : APIKeys} {r : APIKey} (h : r ∈ t.rows)
    (e : APIKeys.Event) : ∃ r' ∈ (APIKeys.step sec t e).rows, r'.id = r.id ∧ r'.name = r.name := by
  have hupdate : ∀ {id : String} {f : APIKey → APIKey} (hid : ∀ r, (f r).id = r.id)
      (hhash : ∀ r, (f r).hash = r.hash), (∀ r, (f r).name = r.name) →
      ∃ r' ∈ (t.updateRow id f hid hhash).rows, r'.id = r.id ∧ r'.name = r.name := by
    intro id f hid hhash hname
    refine ⟨_, mem_updateRow.mpr ⟨r, h, rfl⟩, ?_⟩
    split_ifs
    · exact ⟨hid r, hname r⟩
    · exact ⟨rfl, rfl⟩
  cases e with
  | create name bytes idBytes now access =>
    rcases createAPIKey_cases sec t name bytes idBytes now access with
      ⟨hsame, -⟩ | ⟨key, -, -, hcreate, -⟩
    · -- the insertion failed
      exact ⟨r, by rwa [step, hsame], rfl, rfl⟩
    · refine ⟨r, ?_, rfl, rfl⟩
      unfold createAPIKey at hcreate
      dsimp only at hcreate
      split_ifs at hcreate
      rw [step, ← Option.some.inj hcreate]
      exact List.mem_append_left _ h
  | revoke id now access =>
    rcases revokeAPIKey_cases t id now access with ⟨hsame, -⟩ | ⟨hrevoked, -⟩
    · exact ⟨r, by rwa [step, hsame], rfl, rfl⟩
    · rw [step, hrevoked]
      refine hupdate (revokeRow_id now) (revokeRow_hash now) fun r => ?_
      unfold revokeRow
      split_ifs <;> rfl
  | touch id now =>
    exact hupdate (f := fun r => { r with lastUsedAt := some now }) (fun _ => rfl) (fun _ => rfl)
      fun _ => rfl

namespace Database

def empty : Database := ⟨.empty, [], List.nodup_nil, fun _ h => by cases h⟩

def insertRequestLog (d : Database) (entry : RequestLog) : Option Database :=
  if h : entry.id ∉ d.rows.map (·.id) ∧
      (entry.apiKeyID = "" ∨ entry.apiKeyID ∈ d.keys.rows.map (·.id)) then
    some { d with
      rows := d.rows ++ [entry]
      ids := by
        rw [List.map_append, List.map_singleton]
        exact List.nodup_append_comm.mp (List.nodup_cons.mpr ⟨h.1, d.ids⟩)
      owners := fun r hr => (List.mem_append.mp hr).elim (d.owners r) fun hr =>
        List.mem_singleton.mp hr ▸ h.2 }
  else none

def deleteOldRequestLogs (d : Database) (before : ℤ) : Database :=
  { d with
    rows := d.rows.filter fun r => before ≤ r.createdAt
    ids := d.ids.sublist (List.filter_sublist.map _)
    owners := fun r hr => d.owners r (List.mem_of_mem_filter hr) }

def todayStats (d : Database) (range : ℤ × ℤ) : TodayStats :=
  .of (d.rows.filter fun r => Counts range r.createdAt)

def keyName (d : Database) (id : String) : String :=
  if id = "" then "" else ((d.keys.rows.find? fun r => r.id = id).map (·.name)).getD ""

/-- What `ListRequestLogs` may answer: the order of entries of one millisecond is left to the
database. -/
def Lists (d : Database) (range : ℤ × ℤ) (limit : ℕ) (entries : List (RequestLog × String)) :
    Prop :=
  ∃ order : List RequestLog, order.Perm (d.rows.filter fun r => Counts range r.createdAt) ∧
    order.Pairwise (fun a b => b.createdAt ≤ a.createdAt) ∧
    entries = (order.take limit).map fun r => (r, d.keyName r.apiKeyID)

/-- The entries, with the names of their keys. -/
def entries (d : Database) : List (RequestLog × String) :=
  d.rows.map fun r => (r, d.keyName r.apiKeyID)

def stepKeys (sec : Security) (d : Database) (e : APIKeys.Event) : Database :=
  { d with
    keys := APIKeys.step sec d.keys e
    owners := fun r hr => (d.owners r hr).imp_right fun h => by
      obtain ⟨key, hkey, hid⟩ := List.mem_map.mp h
      obtain ⟨key', hkey', hid', -⟩ := APIKeys.names_step sec hkey e
      exact List.mem_map.mpr ⟨key', hkey', hid'.trans hid⟩ }

end Database

/-- The zone of the server and its `time.Date`, and how long requests are kept. -/
structure Retention where
  zone : Zone
  date : ℤ → ℤ
  requestRetentionDays : ℕ

/-- `now.AddDate(0, 0, -retentionDays)`, in milliseconds. -/
def Retention.retentionBefore (c : Retention) (now : ℤ) : ℤ :=
  1000 * c.date (c.zone.reads (now / 1000) - 86400 * c.requestRetentionDays) + now % 1000

namespace RequestLogs

inductive Event where
  | keys (e : APIKeys.Event)
  | insert (entry : RequestLog) (done : Bool)
  | cleanup (now : ℤ) (done : Bool)

variable (sec : Security) (c : Retention)

/-- A step. Statements that the database has not carried out are only logged. -/
def step (d : Database) : Event → Database
  | .keys e => d.stepKeys sec e
  | .insert entry done => if done then (d.insertRequestLog entry).getD d else d
  | .cleanup now done => if done then d.deleteOldRequestLogs (c.retentionBefore now) else d

def system : TransitionSystem Database Event where
  start := .empty
  step d e := some (step sec c d e)

/-- The entry that a step records, with the name of its key. -/
def recorded (d : Database) : Event → Option (RequestLog × String)
  | .insert entry done =>
    if done ∧ (d.insertRequestLog entry).isSome then some (entry, d.keyName entry.apiKeyID)
    else none
  | .keys _ | .cleanup .. => none

variable {sec} {c} {d e : Database} {log : List (RequestLog × String)} {start : ℤ}
  {range : ℤ × ℤ}

/-! ### Steps -/

lemma insertRequestLog_some {entry : RequestLog} (h : d.insertRequestLog entry = some e) :
    e.keys = d.keys ∧ e.rows = d.rows ++ [entry] := by
  unfold Database.insertRequestLog at h
  split_ifs at h
  obtain rfl := Option.some.inj h
  exact ⟨rfl, rfl⟩

lemma keyName_of_mem {key : APIKey} (h : key ∈ d.keys.rows) (hid : key.id ≠ "") :
    d.keyName key.id = key.name := by
  have hfind : (d.keys.rows.find? fun r => r.id = key.id) = some key :=
    APIKeys.find_unique h (by simp) fun a ha hp =>
      List.inj_on_of_nodup_map d.keys.ids ha h (of_decide_eq_true hp)
  rw [Database.keyName, if_neg hid, hfind]
  rfl

lemma keyName_stepKeys {id : String} (hid : id = "" ∨ id ∈ d.keys.rows.map (·.id))
    (ev : APIKeys.Event) : (d.stepKeys sec ev).keyName id = d.keyName id := by
  by_cases hempty : id = ""
  · rw [Database.keyName, if_pos hempty, Database.keyName, if_pos hempty]
  · obtain ⟨key, hkey, rfl⟩ := List.mem_map.mp (hid.resolve_left hempty)
    obtain ⟨key', hkey', hid', hname⟩ := APIKeys.names_step sec hkey ev
    have hafter : (d.stepKeys sec ev).keyName key'.id = key'.name :=
      keyName_of_mem hkey' (hid' ▸ hempty)
    rw [keyName_of_mem hkey hempty, ← hid', hafter, hname]

lemma entries_stepKeys (ev : APIKeys.Event) : (d.stepKeys sec ev).entries = d.entries :=
  List.map_congr_left fun r hr => by rw [keyName_stepKeys (d.owners r hr)]

lemma entries_insert {entry : RequestLog} (h : d.insertRequestLog entry = some e) :
    e.entries = d.entries ++ [(entry, d.keyName entry.apiKeyID)] := by
  obtain ⟨hkeys, hrows⟩ := insertRequestLog_some h
  have hname : e.keyName = d.keyName := by
    unfold Database.keyName
    rw [hkeys]
  rw [Database.entries, hrows, List.map_append, hname]
  rfl

lemma entries_delete (before : ℤ) : (d.deleteOldRequestLogs before).entries =
    d.entries.filter fun x => before ≤ x.1.createdAt := by
  rw [Database.entries, Database.deleteOldRequestLogs, Database.entries, List.filter_map]
  rfl

/-- The database still has what has been recorded with a time from `start` on. -/
def Keeps (start : ℤ) (d : Database) (log : List (RequestLog × String)) : Prop :=
  (d.entries.filter fun x => start ≤ x.1.createdAt) = log.filter fun x => start ≤ x.1.createdAt

lemma Keeps.cleanup (h : Keeps start d log) {before : ℤ} (hbefore : before ≤ start) :
    Keeps start (d.deleteOldRequestLogs before) log := by
  have hboth : ∀ x ∈ d.entries, (decide (start ≤ x.1.createdAt) &&
      decide (before ≤ x.1.createdAt)) = decide (start ≤ x.1.createdAt) := by
    intro x _
    by_cases hx : start ≤ x.1.createdAt
    · simp [hx, hbefore.trans hx]
    · simp [hx]
  rw [Keeps, entries_delete, List.filter_filter, List.filter_congr hboth]
  exact h

/-- The step does not delete what is from `start` on. -/
def Spares (c : Retention) (start : ℤ) : Event → Prop
  | .cleanup now _ => c.retentionBefore now ≤ start
  | .keys _ | .insert .. => True

lemma keeps_step (h : Keeps start d log) {ev : Event} (hspares : Spares c start ev) :
    Keeps start (step sec c d ev) (log ++ (recorded d ev).toList) := by
  cases ev with
  | keys ev =>
    rw [recorded, Option.toList_none, List.append_nil, step, Keeps, entries_stepKeys]
    exact h
  | insert entry done =>
    rw [step, recorded]
    cases done with
    | false => simpa using h
    | true =>
      cases hinsert : d.insertRequestLog entry with
      | none => simpa using h
      | some e =>
        have hkept : Keeps start e (log ++ [(entry, d.keyName entry.apiKeyID)]) := by
          rw [Keeps, entries_insert hinsert, List.filter_append, List.filter_append, h]
        simpa using hkept
  | cleanup now done =>
    rw [step, recorded, Option.toList_none, List.append_nil]
    split_ifs
    · exact h.cleanup hspares
    · exact h

/-- The newest of some entries, up to a limit. -/
structure Newest (all : List (RequestLog × String)) (limit : ℕ) (l : List (RequestLog × String)) :
    Prop where
  mem : ∀ x ∈ l, x ∈ all
  length : l.length = min limit all.length
  ordered : l.Pairwise fun x y => y.1.createdAt ≤ x.1.createdAt
  rest : ∀ y ∈ all, y ∈ l ∨ ∀ x ∈ l, y.1.createdAt ≤ x.1.createdAt

lemma lists_newest {limit : ℕ} {l : List (RequestLog × String)} (h : d.Lists range limit l) :
    Newest (d.entries.filter fun x => Counts range x.1.createdAt) limit l := by
  obtain ⟨order, hperm, hordered, rfl⟩ := h
  have hall : (d.entries.filter fun x => Counts range x.1.createdAt) =
      (d.rows.filter fun r => Counts range r.createdAt).map
        fun r => (r, d.keyName r.apiKeyID) := by
    rw [Database.entries, List.filter_map]
    rfl
  have hmem : ∀ r, r ∈ d.rows.filter (fun r => Counts range r.createdAt) ↔ r ∈ order :=
    fun r => hperm.mem_iff.symm
  rw [hall]
  refine ⟨fun x hx => ?_, ?_, ?_, fun y hy => ?_⟩
  · obtain ⟨r, hr, rfl⟩ := List.mem_map.mp hx
    exact List.mem_map_of_mem ((hmem r).mpr (List.mem_of_mem_take hr))
  · rw [List.length_map, List.length_take, List.length_map, hperm.length_eq]
  · exact List.pairwise_map.mpr (hordered.sublist (List.take_sublist limit order))
  · obtain ⟨r, hr, rfl⟩ := List.mem_map.mp hy
    have hsplit := List.take_append_drop limit order
    have hr := (hmem r).mp hr
    rw [← hsplit] at hr hordered
    rcases List.mem_append.mp hr with hr | hr
    · exact .inl (List.mem_map_of_mem hr)
    · refine .inr fun x hx => ?_
      obtain ⟨r', hr', rfl⟩ := List.mem_map.mp hx
      exact (List.pairwise_append.mp hordered).2.2 r' hr' r hr

lemma Keeps.counted (h : Keeps start d log) (hstart : start ≤ 1000 * range.1) :
    (d.entries.filter fun x => Counts range x.1.createdAt) =
      log.filter fun x => Counts range x.1.createdAt := by
  have hboth : ∀ l : List (RequestLog × String), (l.filter fun x => Counts range x.1.createdAt) =
      (l.filter fun x => start ≤ x.1.createdAt).filter fun x => Counts range x.1.createdAt := by
    intro l
    rw [List.filter_filter]
    refine List.filter_congr fun x _ => ?_
    by_cases hx : Counts range x.1.createdAt
    · simp [hx, hstart.trans hx.1]
    · simp [hx]
  rw [hboth, h, ← hboth]

lemma todayStats_entries :
    d.todayStats range =
      .of ((d.entries.filter fun x => Counts range x.1.createdAt).map (·.1)) := by
  rw [Database.todayStats, Database.entries, List.filter_map, List.map_map]
  exact congrArg TodayStats.of (List.map_id _).symm

/-- The cutoff of a cleanup, when the offsets of the clock differ by `b` at most. -/
lemma retentionBefore_le (hdate : c.zone.Resolves c.date) {b : ℤ}
    (hb : ∀ t t', c.zone.offset t - c.zone.offset t' ≤ b) (now : ℤ) :
    c.retentionBefore now ≤ now + 1000 * b - 86400000 * c.requestRetentionDays := by
  obtain ⟨t', ht'⟩ :=
    (hdate (c.zone.reads (now / 1000) - 86400 * c.requestRetentionDays)).exists_offset
  have := hb (now / 1000) t'
  rw [Retention.retentionBefore, ht', Zone.reads]
  omega

variable {z : Zone} {date : ℤ → ℤ}

lemma dayOf_eq (h : z.Resolves date) (hmidnight : ∀ n, z.Occurs (86400 * n)) (n : ℤ) :
    dayOf z date n = (date (86400 * n), date (86400 * (n + 1))) := by
  have hnext := h.next (hmidnight n) 86400
  rw [show (86400 * n + 86400 : ℤ) = 86400 * (n + 1) by ring] at hnext
  exact Prod.ext rfl hnext

lemma midnights_mono (h : z.Resolves date) (hmidnight : ∀ n, z.Occurs (86400 * n))
    (hoffset : ∀ t t', z.offset t - z.offset t' < 86400) :
    StrictMono fun n => date (86400 * n) := by
  have hreads (n : ℤ) : date (86400 * n) + z.offset (date (86400 * n)) = 86400 * n :=
    (h _).reads (hmidnight n)
  refine strictMono_int_of_lt_succ fun n => ?_
  have hn := hreads n
  have hn' := hreads (n + 1)
  have := hoffset (date (86400 * (n + 1))) (date (86400 * n))
  omega

lemma stats_days (h : z.Resolves date) (hmidnight : ∀ n, z.Occurs (86400 * n))
    (hoffset : ∀ t t', z.offset t - z.offset t' < 86400) (d : Database) (first : ℤ) (days : ℕ) :
    ∑ i ∈ Finset.range days, d.todayStats (dayOf z date (first + i)) =
      d.todayStats (date (86400 * first), date (86400 * (first + days))) := by
  have hmono := (midnights_mono h hmidnight hoffset).monotone
  induction days with
  | zero =>
    have hnone : ∀ r ∈ d.rows,
        ¬Counts (date (86400 * first), date (86400 * (first + (0 : ℕ)))) r.createdAt := by
      intro r _ hr
      rw [Counts, Nat.cast_zero, add_zero] at hr
      omega
    rw [Finset.sum_range_zero, Database.todayStats,
      List.filter_eq_nil_iff.mpr (by simpa using hnone)]
    rfl
  | succ days ih =>
    rw [Finset.sum_range_succ, ih, dayOf_eq h hmidnight, Nat.cast_succ, ← add_assoc]
    exact TodayStats.of_split d.rows (hmono (by omega)) (hmono (by omega))

/-- The entries that a run has recorded, with the names of their keys. -/
def history (sec : Security) (c : Retention) (es : List Event) : List (RequestLog × String) :=
  (system sec c).trace recorded (system sec c).start es

def utc : Zone := ⟨fun _ => 0, 0, fun _ => by omega⟩

lemma utc_resolves : utc.Resolves fun l => l := fun l => .inl (add_zero l)

def weekly : Retention := ⟨utc, fun l => l, 7⟩

def sampleEntry (id : String) (now : ℤ) : RequestLog :=
  record ⟨id, "", "POST", "/v1/responses", 5, now⟩ "request" "model" 200 3 4 ⟨"", "", 1, 0, 0⟩ []

/-- Entries of the days 0 and 5, and a cleanup on day 9. -/
def sampleRun : List Event :=
  [.insert (sampleEntry "a" 10) true, .insert (sampleEntry "b" 432000010) true,
    .cleanup 777600000 true]

end RequestLogs

end CodexOne
