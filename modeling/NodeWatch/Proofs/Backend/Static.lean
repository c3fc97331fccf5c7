import NodeWatch.Backend
import NodeWatch.Proofs.Net.Endpoint
import NodeWatch.Proofs.Observation

/-!
The nodes of a list of addresses.

Every endpoint that the list names gets one node, in the place where it is named first. Endpoints
are told apart by the way they are printed, which is different for different ones. A look finds all
of these nodes, and changes nothing but the time.
-/

namespace NodeWatch

/-! ### Lists that are read until something fails -/

section

variable {α β ε : Type} {f : α → Except ε β} {xs : List α} {ys : List β} {e : ε}

lemma mapM_eq_ok_iff : xs.mapM f = .ok ys ↔ xs.map f = ys.map .ok := by
  induction xs generalizing ys with
  | nil =>
    cases ys with
    | nil => simp [pure, Except.pure]
    | cons y ys => simp [pure, Except.pure]
  | cons x xs ih =>
    rw [List.mapM_cons, List.map_cons]
    cases hx : f x with
    | error e => cases ys <;> simp [bind, Except.bind]
    | ok y =>
      cases hxs : xs.mapM f with
      | error e =>
        have hnone : ∀ zs : List β, xs.map f ≠ zs.map .ok := fun zs h => by
          rw [← ih, hxs] at h
          cases h
        cases ys with
        | nil => simp [bind, Except.bind]
        | cons z ys => simp [bind, Except.bind, hnone]
      | ok zs =>
        have hzs := ih.mp hxs
        cases ys with
        | nil => simp [bind, Except.bind, pure, Except.pure]
        | cons z ys =>
          simp only [bind, Except.bind, pure, Except.pure, Except.ok.injEq, List.cons.injEq,
            List.map_cons, ← ih, hxs]

/-- The error is that of the first that fails. -/
lemma mapM_eq_error_iff : xs.mapM f = .error e ↔
    ∃ before x after, xs = before ++ x :: after ∧ (∀ b ∈ before, ∃ y, f b = .ok y) ∧
      f x = .error e := by
  induction xs with
  | nil => simp [pure, Except.pure]
  | cons x xs ih =>
    rw [List.mapM_cons]
    cases hx : f x with
    | error d =>
      simp only [bind, Except.bind, Except.error.injEq]
      constructor
      · rintro rfl
        exact ⟨[], x, xs, rfl, by simp, hx⟩
      · rintro ⟨before, z, after, hsplit, hbefore, hz⟩
        cases before with
        | nil =>
          obtain ⟨rfl, -⟩ := List.cons.inj hsplit
          rw [hx] at hz
          exact Except.error.inj hz
        | cons b before =>
          obtain ⟨rfl, -⟩ := List.cons.inj hsplit
          obtain ⟨y, hy⟩ := hbefore x List.mem_cons_self
          rw [hx] at hy
          cases hy
    | ok y =>
      have hfirst : (Except.ok y >>= fun y => xs.mapM f >>= fun ys => pure (y :: ys)) =
          (.error e : Except ε (List β)) ↔ xs.mapM f = .error e := by
        cases xs.mapM f <;> simp [bind, Except.bind, pure, Except.pure]
      rw [hfirst, ih]
      constructor
      · rintro ⟨before, z, after, rfl, hbefore, hz⟩
        exact ⟨x :: before, z, after, rfl, List.forall_mem_cons.mpr ⟨⟨y, hx⟩, hbefore⟩, hz⟩
      · rintro ⟨before, z, after, hsplit, hbefore, hz⟩
        cases before with
        | nil =>
          obtain ⟨rfl, -⟩ := List.cons.inj hsplit
          rw [hx] at hz
          cases hz
        | cons b before =>
          obtain ⟨rfl, rfl⟩ := List.cons.inj hsplit
          exact ⟨before, z, after, rfl, fun c hc => hbefore c (List.mem_cons_of_mem _ hc), hz⟩

end

namespace Backend.Static

open Text Net.Endpoint

variable {raw serviceType : String} {now : Time.Instant} {e f : Net.Endpoint}
  {o : Observation} {os : List Observation} {texts : List String} {resolve : Net.Resolver}

lemma regular_of_endpoint (h : endpoint raw resolve = .ok e) : Regular e := by
  unfold endpoint at h
  dsimp only at h
  split at h
  next g hg =>
    obtain rfl := Except.ok.inj h
    exact regular_of_named hg
  next => cases h

lemma invalidAddress_of_endpoint {err : Error} (h : endpoint raw resolve = .error err) :
    ∃ fault : Net.EndpointFault, err = .invalidAddress (trimmed raw) fault.message := by
  unfold endpoint at h
  dsimp only at h
  split at h
  next => cases h
  next fault _ => exact ⟨fault, (Except.error.inj h).symm⟩

/-- Identities tell endpoints apart. -/
lemma identity_inj (he : Regular e) (hf : Regular f) : identity e = identity f ↔ e = f := by
  rw [identity, identity, String.append_right_inj, toString_inj he hf]

lemma nodes_eq_error_iff {err : Error} :
    nodes texts serviceType now resolve = .error err ↔
      texts.mapM (endpoint · resolve) = .error err := by
  rw [nodes]
  cases texts.mapM (endpoint · resolve) <;> simp [bind, Except.bind, pure, Except.pure]

lemma nodes_eq_ok_iff : nodes texts serviceType now resolve = .ok os ↔
    ∃ es : List Net.Endpoint, texts.map (endpoint · resolve) = es.map .ok ∧
      os = es.eraseDups.map (nodeAt serviceType now) := by
  have hunique : ∀ es : List Net.Endpoint, texts.map (endpoint · resolve) = es.map .ok →
      Observation.latestById (es.map (nodeAt serviceType now)) =
        es.eraseDups.map (nodeAt serviceType now) := by
    intro es hes
    have hregular : ∀ e ∈ es, Regular e := by
      intro e he
      have hmem : Except.ok e ∈ texts.map (endpoint · resolve) := hes ▸ List.mem_map_of_mem he
      obtain ⟨raw, -, hraw⟩ := List.mem_map.mp hmem
      exact regular_of_endpoint hraw
    exact Observation.latestById_map fun e he f hf =>
      (identity_inj (hregular e he) (hregular f hf)).mp
  rw [nodes]
  cases hes : texts.mapM (endpoint · resolve) with
  | error err =>
    have hnone : ∀ es : List Net.Endpoint,
        texts.map (endpoint · resolve) ≠ es.map .ok := fun es h => by
      rw [← mapM_eq_ok_iff, hes] at h
      cases h
    simp [bind, Except.bind, hnone]
  | ok es =>
    have hmap := mapM_eq_ok_iff.mp hes
    have hothers : ∀ fs : List Net.Endpoint,
        texts.map (endpoint · resolve) = fs.map .ok ↔ es = fs :=
      fun fs => by rw [← mapM_eq_ok_iff, hes, Except.ok.injEq]
    simp [bind, Except.bind, pure, Except.pure, hothers, hunique es hmap, eq_comm]

/-- A text of a host that is a literal address, a colon and what is to be the port. -/
def Writes (raw : String) (a : Net.Address) (scope : UInt32) (port : List Char) : Prop :=
  ∃ host, trim raw.toList = host ++ ':' :: port ∧ ':' ∉ port ∧ Literal host a scope

lemma endpoint_eq_ok_iff (hresolve : KnowsNoBrackets resolve) {a : Net.Address} {scope : UInt32}
    {port : List Char} (h : Writes raw a scope port) :
    endpoint raw resolve = .ok e ↔ ∃ m, portOf? a port = some m ∧ e = ⟨a, .ofNat m, scope⟩ := by
  obtain ⟨host, htext, hport, hhost⟩ := h
  rw [← named_eq_ok_iff hresolve hhost hport, ← htext, endpoint]
  cases Net.Endpoint.named (trim raw.toList) resolve <;> simp

/-- The node that a listed text stands for. -/
def IsNodeOf (resolve : Net.Resolver) (os : List Observation) (raw : String) (o : Observation) :
    Prop :=
  o ∈ os ∧ ∃ e, endpoint raw resolve = .ok e ∧ o.id = identity e

section

variable {es : List Net.Endpoint} {raw' : String}

lemma mem_of_endpoint (hes : texts.map (endpoint · resolve) = es.map .ok) (hraw : raw ∈ texts) :
    ∃ e ∈ es, endpoint raw resolve = .ok e := by
  have hmem : endpoint raw resolve ∈ es.map .ok := hes ▸ List.mem_map_of_mem hraw
  obtain ⟨e, he, hok⟩ := List.mem_map.mp hmem
  exact ⟨e, he, hok.symm⟩

lemma isNodeOf_iff (hes : texts.map (endpoint · resolve) = es.map .ok) (he : e ∈ es)
    (hraw : endpoint raw resolve = .ok e) :
    IsNodeOf resolve (es.eraseDups.map (nodeAt serviceType now)) raw o ↔
      o = nodeAt serviceType now e := by
  constructor
  · rintro ⟨ho, f, hf, hid⟩
    obtain rfl : e = f := Except.ok.inj (hraw.symm.trans hf)
    obtain ⟨g, hg, rfl⟩ := List.mem_map.mp ho
    have hmem : Except.ok g ∈ texts.map (endpoint · resolve) :=
      hes ▸ List.mem_map_of_mem (List.mem_eraseDups.mp hg)
    obtain ⟨raw', -, hraw'⟩ := List.mem_map.mp hmem
    rw [(identity_inj (regular_of_endpoint hraw') (regular_of_endpoint hraw)).mp hid]
  · rintro rfl
    exact ⟨List.mem_map_of_mem (List.mem_eraseDups.mpr he), e, hraw, rfl⟩

lemma nodeAt_inj (he : Regular e) (hf : Regular f) :
    nodeAt serviceType now e = nodeAt serviceType now f ↔ e = f :=
  ⟨fun h => (identity_inj he hf).mp (congrArg Observation.id h), fun h => h ▸ rfl⟩

end

/-- **The nodes of a list of addresses.** Where the host is a literal address, a text names that
address with its scope and the port it writes. The first text that names nothing is the error of the
list. Otherwise there is one node for each endpoint, in the order in which these are named first;
each text has exactly one node, and two texts have the same if and only if they name the same
endpoint. A look finds the nodes as they are, at its own time. -/
theorem nodes_of_listed (texts : List String) (serviceType : String) (now : Time.Instant)
    (resolve : Net.Resolver) :
    (KnowsNoBrackets resolve → ∀ raw a scope port, Writes raw a scope port → ∀ e,
        endpoint raw resolve = .ok e ↔ ∃ m, portOf? a port = some m ∧ e = ⟨a, .ofNat m, scope⟩) ∧
      (∀ err, nodes texts serviceType now resolve = .error err ↔
        ∃ before raw after, texts = before ++ raw :: after ∧
          (∀ text ∈ before, ∃ e, endpoint text resolve = .ok e) ∧
          endpoint raw resolve = .error err ∧
          ∃ fault : Net.EndpointFault, err = .invalidAddress (trimmed raw) fault.message) ∧
      ∀ os, nodes texts serviceType now resolve = .ok os →
        (∃ es : List Net.Endpoint, texts.map (endpoint · resolve) = es.map .ok ∧
          os = es.eraseDups.map (nodeAt serviceType now) ∧
          os.map (fun o => (o.address, o.port)) = es.eraseDups.map fun e => (e.address, e.port)) ∧
        (∀ raw ∈ texts, ∃! o, IsNodeOf resolve os raw o) ∧
        (∀ raw ∈ texts, ∀ raw' ∈ texts,
          (∃ o, IsNodeOf resolve os raw o ∧ IsNodeOf resolve os raw' o) ↔
            endpoint raw resolve = endpoint raw' resolve) ∧
        ∀ around later, (Backend.static os).look around later =
          .ok (os.map fun o => { o with lastSeen := later }) := by
  refine ⟨fun hresolve raw a scope port h e => endpoint_eq_ok_iff hresolve h, fun err => ?_,
    fun os hos => ?_⟩
  · rw [nodes_eq_error_iff, mapM_eq_error_iff]
    constructor
    · rintro ⟨before, raw, after, hsplit, hbefore, hraw⟩
      exact ⟨before, raw, after, hsplit, hbefore, hraw, invalidAddress_of_endpoint hraw⟩
    · rintro ⟨before, raw, after, hsplit, hbefore, hraw, -⟩
      exact ⟨before, raw, after, hsplit, hbefore, hraw⟩
  obtain ⟨es, hes, rfl⟩ := nodes_eq_ok_iff.mp hos
  refine ⟨⟨es, hes, rfl, by simp [nodeAt, Observation.bare, Observation.withServiceType,
    Observation.withAttribute]⟩, fun raw hraw => ?_, fun raw hraw raw' hraw' => ?_,
    fun around later => rfl⟩
  · obtain ⟨e, he, hok⟩ := mem_of_endpoint hes hraw
    simp only [isNodeOf_iff hes he hok, existsUnique_eq]
  · obtain ⟨e, he, hok⟩ := mem_of_endpoint hes hraw
    obtain ⟨f, hf, hok'⟩ := mem_of_endpoint hes hraw'
    simp only [isNodeOf_iff hes he hok, isNodeOf_iff hes hf hok', exists_eq_left]
    rw [nodeAt_inj (regular_of_endpoint hok) (regular_of_endpoint hok'), hok, hok',
      Except.ok.injEq]

theorem nodes_of_listed_in_three_ways :
    endpoint " 10.0.0.1:80 " = .ok ⟨.v4 10 0 0 1, 80, 0⟩ ∧
      ∃ os, nodes [" 10.0.0.1:80 ", "[::1]:80", "10.0.0.1:+80"] "" (.ofSeconds 0) = .ok os ∧
        (∃ o, IsNodeOf .empty os " 10.0.0.1:80 " o ∧ IsNodeOf .empty os "10.0.0.1:+80" o) ∧
        ¬ ∃ o, IsNodeOf .empty os " 10.0.0.1:80 " o ∧ IsNodeOf .empty os "[::1]:80" o := by
  obtain ⟨hread, -, hok⟩ :=
    nodes_of_listed [" 10.0.0.1:80 ", "[::1]:80", "10.0.0.1:+80"] "" (.ofSeconds 0) .empty
  let first : Net.Endpoint := ⟨.v4 10 0 0 1, 80, 0⟩
  let second : Net.Endpoint := ⟨.v6 ⟨#[0, 0, 0, 0, 0, 0, 0, 1], rfl⟩, 80, 0⟩
  have hwrites : Writes " 10.0.0.1:80 " (.v4 10 0 0 1) 0 ['8', '0'] :=
    ⟨"10.0.0.1".toList, by decide, by decide, .octets (by decide)⟩
  have hfirst : endpoint " 10.0.0.1:80 " = .ok first :=
    (hread knowsNoBrackets_empty _ _ _ _ hwrites _).mpr ⟨80, by decide, rfl⟩
  have hsecond : endpoint "[::1]:80" = .ok second := by rfl
  have hthird : endpoint "10.0.0.1:+80" = .ok first := by rfl
  have hnodes : nodes [" 10.0.0.1:80 ", "[::1]:80", "10.0.0.1:+80"] "" (.ofSeconds 0) =
      .ok ([first, second, first].eraseDups.map (nodeAt "" (.ofSeconds 0))) :=
    nodes_eq_ok_iff.mpr ⟨_, by simp [hfirst, hsecond, hthird], rfl⟩
  obtain ⟨-, -, hshared, -⟩ := hok _ hnodes
  refine ⟨hfirst, _, hnodes, (hshared _ (by simp) _ (by simp)).mpr (hfirst.trans hthird.symm), ?_⟩
  rw [hshared _ (by simp) _ (by simp), hfirst, hsecond]
  decide

end Backend.Static

end NodeWatch
