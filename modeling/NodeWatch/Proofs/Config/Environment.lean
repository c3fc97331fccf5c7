import Mathlib.Data.List.Nodup
import Mathlib.Tactic.Common
import NodeWatch.Config.Environment

/-!
Which variable sets what.

The method is the one that is named, and a name that no method has is refused. Every other variable
is read into one setting of its own. What is no text is not seen at all, be it in the variable of
the method or in another one.
-/

namespace NodeWatch.Config

open Text Environment

/-! ### Names of methods -/

/-- The names that a method goes by. -/
inductive Method.Named : Method → String → Prop where
  | broadcast : Named .broadcast "broadcast"
  | mdns : Named .broadcast "mdns"
  | probe : Named .probe "probe"
  | static : Named .static "static"

lemma Method.ofName?_eq_some_iff {m : Method} {s : String} :
    ofName? s = some m ↔ m.Named s := by
  constructor
  · intro h
    unfold ofName? at h
    split_ifs at h with halias
    · obtain rfl := Option.some.inj h
      exact halias ▸ .mdns
    · have htext : m.text = s := by simpa using List.find?_some h
      subst htext
      cases m
      exacts [.broadcast, .probe, .static]
  · rintro (_ | _ | _ | _) <;> decide

lemma Method.ofName?_eq_none_iff {s : String} : ofName? s = none ↔ ∀ m : Method, ¬ m.Named s := by
  simp only [Option.eq_none_iff_forall_ne_some, ne_eq, ofName?_eq_some_iff]

lemma methodOf_eq_ok_iff {s : String} {m : Method} :
    methodOf s = .ok m ↔ m.Named (Method.folded s) := by
  rw [← Method.ofName?_eq_some_iff, methodOf, Method.ofText?]
  cases Method.ofName? (Method.folded s) <;> simp

lemma methodOf_eq_error_iff {s : String} {f : Fault} :
    methodOf s = .error f ↔ (∀ m : Method, ¬ m.Named (Method.folded s)) ∧
      f = .invalid "method" (.unknownMethod (Method.folded s)) := by
  rw [← Method.ofName?_eq_none_iff, methodOf, Method.ofText?]
  cases Method.ofName? (Method.folded s) <;> simp [eq_comm]

/-! ### What a variable sets -/

namespace Variable

/-- The settings `target`, but for the one that the variable sets: it is as in `source`. -/
def copy (v : Variable) (source target : Config) : Config :=
  match v with
  | method => { target with discovery.method := source.discovery.method }
  | interface => { target with discovery.interface := source.discovery.interface }
  | interval => { target with discovery.intervalSecs := source.discovery.intervalSecs }
  | timeout => { target with discovery.timeoutSecs := source.discovery.timeoutSecs }
  | staticNodes => { target with discovery.staticNodes := source.discovery.staticNodes }
  | serviceName => { target with discovery.serviceName := source.discovery.serviceName }
  | serviceType => { target with discovery.serviceType := source.discovery.serviceType }
  | domain => { target with discovery.domain := source.discovery.domain }
  | probePort => { target with discovery.probePort := source.discovery.probePort }
  | probeConcurrency =>
    { target with discovery.probeConcurrency := source.discovery.probeConcurrency }
  | stalenessMultiplier =>
    { target with discovery.stalenessMultiplier := source.discovery.stalenessMultiplier }
  | sweepMultiplier =>
    { target with discovery.sweepMultiplier := source.discovery.sweepMultiplier }
  | instanceName => { target with announce.instanceName := source.announce.instanceName }
  | announcePort => { target with announce.port := source.announce.port }
  | announceTtl => { target with announce.ttlSecs := source.announce.ttlSecs }
  | capabilities => { target with announce.capabilities := source.announce.capabilities }
  | storagePath => { target with storage.path := source.storage.path }
  | statusEnabled => { target with status.enabled := source.status.enabled }
  | statusBind => { target with status.bindAddress := source.status.bindAddress }
  | webhookUrl => { target with notify.webhookUrl := source.notify.webhookUrl }
  | webhookToken => { target with notify.authToken := source.notify.authToken }
  | logLevel => { target with logging.level := source.logging.level }
  | logFormat => { target with logging.format := source.logging.format }

lemma mem_all (v : Variable) : v ∈ all := by cases v <;> decide

lemma name_injective : Function.Injective name := by
  have hnodup : (all.map name).Nodup := by decide +kernel
  exact fun v w h => List.inj_on_of_nodup_map hnodup v.mem_all w.mem_all h

end Variable

/-! ### Environments that differ in one variable -/

variable {e e' : Environment} {c c' : Config} {v w : Variable} {n : String}

/-- All variables but the one of this name are the same. -/
def Environment.AgreesOff (n : String) (e e' : Environment) : Prop := ∀ k, k ≠ n → e' k = e k

/-- The environment in which one variable is set. -/
def Environment.only (v : Variable) (bytes : List UInt8) : Environment :=
  fun n => if n = v.name then some bytes else none

lemma Environment.agreesOff_only (v : Variable) (bytes : List UInt8) :
    AgreesOff v.name .empty (only v bytes) := fun _ hk => if_neg hk

lemma Environment.AgreesOff.text? (h : AgreesOff n e e') (hw : w.name ≠ n) :
    e'.text? w.name = e.text? w.name := by
  rw [Environment.text?, Environment.text?, h _ hw]

/-- The settings of an environment that asks for the method `m`. -/
def settingsFrom (e : Environment) (m : Method) : Config where
  discovery := discoveryFrom e m
  announce := announceFrom e
  storage := { path := (e.text? Variable.storagePath.name).getD ({} : Storage).path }
  logging := {
    level := (e.text? Variable.logLevel.name).getD ({} : Logging).level
    format := (e.text? Variable.logFormat.name).getD ({} : Logging).format }
  status := statusFrom e
  notify := {
    webhookUrl := e.text? Variable.webhookUrl.name
    authToken := e.text? Variable.webhookToken.name }

lemma fromEnvironment_eq (e : Environment) :
    fromEnvironment e = (methodFrom e).map (settingsFrom e) := by
  rw [fromEnvironment]
  cases methodFrom e <;> rfl

lemma fromEnvironment_eq_ok_iff :
    fromEnvironment e = .ok c ↔ ∃ m, methodFrom e = .ok m ∧ settingsFrom e m = c := by
  rw [fromEnvironment_eq]
  cases methodFrom e <;> simp [Except.map]

lemma fromEnvironment_eq_error_iff {f : Fault} :
    fromEnvironment e = .error f ↔ methodFrom e = .error f := by
  rw [fromEnvironment_eq]
  cases methodFrom e <;> simp [Except.map]

/-- Of the settings, a variable changes its own only. -/
lemma settingsFrom_of_agreesOff {m m' : Method} (h : AgreesOff v.name e e')
    (hm : v ≠ .method → m' = m) :
    settingsFrom e' m' = v.copy (settingsFrom e' m') (settingsFrom e m) := by
  have hother : ∀ w : Variable, w ≠ v → e'.text? w.name = e.text? w.name :=
    fun w hw => h.text? fun hname => hw (Variable.name_injective hname)
  cases v <;>
    simp (disch := decide) only [settingsFrom, discoveryFrom, announceFrom, statusFrom,
      number?, truth?, parts?, parsed?, Variable.copy, hm, hother]

/-- Variables that have another name set nothing. -/
lemma settingsFrom_of_unread (h : AgreesOff n e e') (hn : ∀ w : Variable, w.name ≠ n) :
    settingsFrom e' = settingsFrom e := by
  funext m
  simp only [settingsFrom, discoveryFrom, announceFrom, statusFrom, number?, truth?, parts?,
    parsed?, h.text? (hn _)]

lemma methodFrom_of_agreesOff (h : AgreesOff n e e') (hn : n ≠ Variable.method.name) :
    methodFrom e' = methodFrom e := by
  rw [methodFrom, methodFrom, h.text? hn.symm]

/-- Settings that environments make which differ in one variable differ in its setting only. -/
lemma fromEnvironment_of_agreesOff (h : AgreesOff n e e') (hc : fromEnvironment e = .ok c)
    (hc' : fromEnvironment e' = .ok c') :
    c' = c ∨ ∃ v : Variable, v.name = n ∧ c' = v.copy c' c := by
  obtain ⟨m, hm, rfl⟩ := fromEnvironment_eq_ok_iff.mp hc
  obtain ⟨m', hm', rfl⟩ := fromEnvironment_eq_ok_iff.mp hc'
  have hsame : n ≠ Variable.method.name → m' = m := by
    intro hn
    rw [methodFrom_of_agreesOff h hn, hm] at hm'
    exact (Except.ok.inj hm').symm
  by_cases hn : ∃ v : Variable, v.name = n
  · obtain ⟨v, rfl⟩ := hn
    refine .inr ⟨v, rfl, settingsFrom_of_agreesOff h fun hv => hsame ?_⟩
    exact fun hname => hv (Variable.name_injective hname)
  · have hunread : ∀ v : Variable, v.name ≠ n := not_exists.mp hn
    obtain rfl := hsame (hunread .method).symm
    rw [settingsFrom_of_unread h hunread]
    exact .inl rfl

/-! ### The settings of an environment -/

lemma fromEnvironment_eq_error_iff_named {f : Fault} : fromEnvironment e = .error f ↔
    ∃ s, e.text? Variable.method.name = some s ∧ (∀ m : Method, ¬ m.Named (Method.folded s)) ∧
      f = .invalid "method" (.unknownMethod (Method.folded s)) := by
  rw [fromEnvironment_eq_error_iff, methodFrom]
  cases e.text? Variable.method.name with
  | none => simp
  | some s => simpa using methodOf_eq_error_iff

lemma named_of_fromEnvironment (hc : fromEnvironment e = .ok c) {s : String}
    (hs : e.text? Variable.method.name = some s) : c.discovery.method.Named (Method.folded s) := by
  obtain ⟨m, hm, rfl⟩ := fromEnvironment_eq_ok_iff.mp hc
  rw [methodFrom, hs] at hm
  exact methodOf_eq_ok_iff.mp hm

lemma default_of_fromEnvironment (hc : fromEnvironment e = .ok c)
    (hs : e.text? Variable.method.name = none) :
    c.discovery.method = ({} : Discovery).method := by
  obtain ⟨m, hm, rfl⟩ := fromEnvironment_eq_ok_iff.mp hc
  rw [methodFrom, hs] at hm
  exact (Except.ok.inj hm).symm

lemma fromEnvironment_empty : fromEnvironment .empty = .ok {} := by rfl

/-- No variable is left out: each one can move its setting away from the default. -/
lemma exists_set (v : Variable) :
    ∃ bytes c, fromEnvironment (Environment.only v bytes) = .ok c ∧ c ≠ {} := by
  cases v with
  | method => exact ⟨[0x70, 0x72, 0x6f, 0x62, 0x65], _, by rfl, by decide +kernel⟩
  | statusEnabled => exact ⟨[0x66, 0x61, 0x6c, 0x73, 0x65], _, by rfl, by decide +kernel⟩
  | statusBind =>
    exact ⟨[0x31, 0x2e, 0x31, 0x2e, 0x31, 0x2e, 0x31, 0x3a, 0x31], _, by rfl, by decide +kernel⟩
  -- the digit nine is a number, a text and a list of one part, and never the default
  | _ => exact ⟨[0x39], _, by rfl, by decide +kernel⟩

/-- **The method is never guessed from a text, and no setting is read from another's variable.**
Settings are refused exactly if the text that asks for a method names none. If there are settings,
they have the method that is named, or the default one if there is no text. One variable decides
its own setting only, and whether there are settings only if it is the one of the method; and every
variable does decide something. -/
theorem fromEnvironment_by_variable (e : Environment) :
    (∀ f, fromEnvironment e = .error f ↔
      ∃ s, e.text? Variable.method.name = some s ∧
        (∀ m : Method, ¬ m.Named (Method.folded s)) ∧
        f = .invalid "method" (.unknownMethod (Method.folded s))) ∧
    (∀ c, fromEnvironment e = .ok c →
      (∀ s, e.text? Variable.method.name = some s →
        c.discovery.method.Named (Method.folded s)) ∧
      (e.text? Variable.method.name = none →
        c.discovery.method = ({} : Discovery).method)) ∧
    (∀ n e', AgreesOff n e e' →
      (n ≠ Variable.method.name →
        ∀ f, fromEnvironment e' = .error f ↔ fromEnvironment e = .error f) ∧
      ∀ c c', fromEnvironment e = .ok c → fromEnvironment e' = .ok c' →
        c' = c ∨ ∃ v : Variable, v.name = n ∧ c' = v.copy c' c) ∧
    ∀ v : Variable, ∃ bytes c, fromEnvironment (Environment.only v bytes) = .ok c ∧ c ≠ {} := by
  refine ⟨fun f => fromEnvironment_eq_error_iff_named, fun c hc => ⟨?named, ?default⟩,
    fun n e' h => ⟨?refused, ?settings⟩, exists_set⟩
  case named => exact fun s hs => named_of_fromEnvironment hc hs
  case default => exact default_of_fromEnvironment hc
  case refused =>
    intro hn f
    rw [fromEnvironment_eq_error_iff, fromEnvironment_eq_error_iff, methodFrom_of_agreesOff h hn]
  case settings => exact fun c c' hc hc' => fromEnvironment_of_agreesOff h hc hc'

theorem fromEnvironment_by_timeout :
    ∃ c c' : Config, fromEnvironment .empty = .ok c ∧
      fromEnvironment (Environment.only .timeout [0x39]) = .ok c' ∧
      c'.discovery.timeoutSecs = 9 ∧
      (c' = c ∨ ∃ v : Variable, v.name = Variable.timeout.name ∧ c' = v.copy c' c) := by
  have hset : fromEnvironment (Environment.only .timeout [0x39]) =
      .ok { discovery := { timeoutSecs := 9 } } := by rfl
  obtain ⟨-, -, hdiffer, -⟩ := fromEnvironment_by_variable .empty
  exact ⟨_, _, fromEnvironment_empty, hset, rfl,
    (hdiffer _ _ (agreesOff_only .timeout [0x39])).2 _ _ fromEnvironment_empty hset⟩

/-- Bytes that are no text name no method, and yet the default one is taken. -/
theorem default_though_set :
    Environment.only .method [0xFF] Variable.method.name = some [0xFF] ∧
    ofBytes? [0xFF] = none ∧
    fromEnvironment (Environment.only .method [0xFF]) = .ok {} := by
  refine ⟨by decide +kernel, by decide +kernel, by rfl⟩

end NodeWatch.Config
