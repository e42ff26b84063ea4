import Mathlib.Data.List.Nodup
import SoapRelay.Bridge
import SoapRelay.Proofs.Bus
import SoapRelay.Proofs.Except
import SoapRelay.Proofs.Exchange
import SoapRelay.Proofs.Forward
import SoapRelay.Proofs.Token

/-!
# Who consumes which topic

The first consumer that asks for a topic has it for good, and takes every message that is ever taken from
it. Which of the consumers of a bridge come first is decided by the names of its topics.
-/

namespace SoapRelay

section

variable {c : Client} {p : Platform} {s s' : Scene Traffic} {bus bus' : Bus} {stations : List Station}
  {posts consumers : List (Role × Consumer)} {x : Relay} {role : Role} {name : String}

/-! ### Stations -/

namespace Station

def topic (t : Station) : String := t.worker.consumer.topic

def post (t : Station) : Role × Consumer := (t.role, t.worker.consumer)

theorem map_post_topic (stations : List Station) : (stations.map post).map (·.2.topic) = stations.map topic :=
  List.map_map ..

theorem filter_topic {t : Station} (apart : (stations.map topic).Nodup) (member : t ∈ stations) :
    stations.filter (·.topic = t.topic) = [t] := by
  obtain ⟨before, after, rfl⟩ := List.append_of_mem member
  rw [List.map_append, List.map_cons, List.nodup_middle, List.nodup_cons, ← List.map_append] at apart
  have others : ∀ u ∈ before ++ after, ¬u.topic = t.topic := by
    intro u other same
    exact apart.1 (same ▸ List.mem_map_of_mem other)
  have none : (before ++ after).filter (·.topic = t.topic) = [] := by
    rw [List.filter_eq_nil_iff]
    intro u other
    rw [decide_eq_true_eq]
    exact others u other
  rw [List.filter_append, List.append_eq_nil_iff] at none
  simp [none.1, none.2]

end Station

/-- A topic has one subscriber. It has this role and took every message that was ever taken from the topic. -/
def Serves (bus : Bus) (stations : List Station) (role : Role) (topic : String) : Prop :=
  ∃ t, stations.filter (·.topic = topic) = [t] ∧ t.role = role ∧ t.worker.taken = bus.takings topic

/-- The stations stand at their posts, and each took what was taken from its topic. -/
structure Staffed (posts : List (Role × Consumer)) (bus : Bus) (stations : List Station) : Prop where
  posts : stations.map Station.post = posts
  took : ∀ t ∈ stations, t.worker.taken = bus.takings t.topic

namespace Staffed

theorem topics (staffed : Staffed posts bus stations) : stations.map Station.topic = posts.map (·.2.topic) := by
  rw [← staffed.posts, Station.map_post_topic]

theorem withBus (staffed : Staffed posts bus stations) (same : bus'.takings = bus.takings) :
    Staffed posts bus' stations := by
  refine ⟨staffed.posts, ?_⟩
  rw [same]
  exact staffed.took

/-- One station takes some messages of its topic. -/
theorem set (apart : (posts.map (·.2.topic)).Nodup) (staffed : Staffed posts bus stations) {i n : Nat} {t : Station}
    (here : stations[i]? = some t) {w : Worker CallWork} (own : w.consumer = t.worker.consumer)
    (more : w.taken = t.worker.taken + n)
    (takings : ∀ name, bus'.takings name = bus.takings name + if name = t.topic then n else 0) :
    Staffed posts bus' (stations.set i { t with worker := w }) := by
  obtain ⟨inside, found⟩ := List.getElem?_eq_some_iff.mp here
  constructor
  · have posted : i < (stations.map Station.post).length := by simpa using inside
    have same : Station.post { t with worker := w } = (stations.map Station.post)[i] := by
      rw [List.getElem_map, found]
      unfold Station.post
      rw [own]
    rw [List.map_set, same, List.set_getElem_self, staffed.posts]
  · intro u member
    obtain ⟨j, there⟩ := List.mem_iff_getElem?.mp member
    rw [List.getElem?_set] at there
    split at there
    · obtain rfl := Option.some.inj there
      have topic : Station.topic { t with worker := w } = t.topic := congrArg Consumer.topic own
      rw [topic, takings, if_pos rfl, ← staffed.took t (List.mem_of_getElem? here)]
      exact more
    · rename_i other
      -- no two stations share a topic, so nothing was taken from the topic of another one
      have elsewhere : u.topic ≠ t.topic := by
        intro same
        rw [← staffed.topics] at apart
        refine other ((List.getElem?_inj (by simpa using inside) apart).mp ?_)
        rw [List.getElem?_map, List.getElem?_map, here, there, Option.map_some, Option.map_some, same]
      rw [takings, if_neg elsewhere, Nat.add_zero]
      exact staffed.took u (List.mem_of_getElem? there)

theorem serves_iff (staffed : Staffed posts bus stations) (apart : (posts.map (·.2.topic)).Nodup) :
    Serves bus stations role name ↔ (posts.find? (·.2.topic = name)).map (·.1) = some role := by
  have first : (posts.find? (·.2.topic = name)).map (·.1) =
      (stations.filter (·.topic = name)).head?.map (·.role) := by
    rw [← staffed.posts, List.find?_map, List.head?_filter, Option.map_map]
    rfl
  rw [first]
  constructor
  · rintro ⟨t, alone, same, _⟩
    rw [alone, List.head?_cons, Option.map_some, same]
  · intro found
    obtain ⟨t, head, same⟩ := Option.map_eq_some_iff.mp found
    obtain ⟨member, there⟩ := List.mem_filter.mp (List.mem_of_head? head)
    obtain rfl := of_decide_eq_true there
    refine ⟨t, Station.filter_topic ?_ member, same, staffed.took t member⟩
    rw [staffed.topics]
    exact apart

end Staffed

/-! ### Who comes first -/

namespace Exchange

theorem enlist_find? (bus : Bus) (consumers : List (Role × Consumer)) (topic : String) :
    ((enlist bus consumers).2.map Station.post).find? (·.2.topic = topic) =
      if (bus.topic topic).subscription = .free then consumers.find? (·.2.topic = topic) else none := by
  -- on the consumers: each that subscribes leaves a bus on which its topic is not free any more
  induction consumers generalizing bus with
  | nil => exact (ite_self _).symm
  | cons first rest ih =>
    obtain ⟨role, c⟩ := first
    unfold enlist
    by_cases free : (bus.topic c.topic).subscription = .free
    · obtain ⟨after, subscribed, topics⟩ := Bus.exists_subscribe? free
      rw [subscribed]
      dsimp only
      by_cases same : c.topic = topic
      · subst same
        simp [Station.post, Worker.create, free]
      · simp [Station.post, Worker.create, same, ih after, topics, Ne.symm same]
    · rw [Bus.subscribe?_unfree free]
      dsimp only
      rw [ih bus]
      by_cases same : c.topic = topic
      · subst same
        simp [free]
      · simp [same]

theorem enlist_apart (bus : Bus) (consumers : List (Role × Consumer)) :
    (((enlist bus consumers).2.map Station.post).map (·.2.topic)).Nodup := by
  induction consumers generalizing bus with
  | nil => exact List.nodup_nil
  | cons first rest ih =>
    obtain ⟨role, c⟩ := first
    unfold enlist
    split
    · rename_i after subscribed
      dsimp only
      rw [List.map_cons, List.map_cons]
      refine List.nodup_cons.mpr ⟨?_, ih after⟩
      intro again
      obtain ⟨post, member, same⟩ := List.mem_map.mp again
      have none := enlist_find? after rest c.topic
      rw [if_neg (Bus.unfree_of_subscribe? subscribed), List.find?_eq_none] at none
      exact none post member (decide_eq_true same)
    · exact ih bus

theorem enlist_takings (bus : Bus) (consumers : List (Role × Consumer)) :
    (enlist bus consumers).1.takings = bus.takings ∧ ∀ t ∈ (enlist bus consumers).2, t.worker.taken = 0 := by
  induction consumers generalizing bus with
  | nil => exact ⟨rfl, nofun⟩
  | cons first rest ih =>
    obtain ⟨role, c⟩ := first
    unfold enlist
    split
    · rename_i after subscribed
      obtain ⟨same, none⟩ := ih after
      refine ⟨same.trans (Bus.takings_subscribe? subscribed), ?_⟩
      intro t member
      rcases List.mem_cons.mp member with rfl | later
      · rfl
      · exact none t later
    · exact ih bus

theorem enlist_staffed (consumers : List (Role × Consumer)) : Staffed
    ((enlist .empty consumers).2.map Station.post) (enlist .empty consumers).1 (enlist .empty consumers).2 := by
  obtain ⟨same, none⟩ := enlist_takings .empty consumers
  refine ⟨rfl, ?_⟩
  intro t member
  rw [none t member, same]
  rfl

end Exchange

/-! ### What is taken -/

namespace Worker

variable {w w' : Worker CallWork}

theorem take?_takings (took : w.take? s = some (s', w')) : w'.consumer = w.consumer ∧ ∃ n, w'.taken = w.taken + n ∧
    ∀ name, s'.bus.takings name = s.bus.takings name + if name = w.consumer.topic then n else 0 := by
  cases takes_of_take? took with
  | message subscribed running room received => exact ⟨rfl, 1, rfl, Bus.takings_receive? received⟩
  | nothing subscribed stopping =>
    refine ⟨rfl, 0, rfl, ?_⟩
    intro name
    rw [ite_self]
    exact congrFun (Bus.takings_unsubscribe s.bus w.consumer.topic) name

theorem goAt?_consumer_taken {h : Handler Traffic CallWork} {k : Nat} {ended : Bool}
    (went : w.goAt? h s k = some (s', w', ended)) : w'.consumer = w.consumer ∧ w'.taken = w.taken := by
  obtain ⟨d, _, _, rfl⟩ := goAt?_eq_some went
  have fixed := w.put_fixed (w.inFlight.eraseIdx k) (d.go h w.consumer s w.stats).2.1 (d.go h w.consumer s w.stats).2.2
  exact ⟨fixed.1, fixed.2.2⟩

end Worker

namespace Client

theorem publish_takings (c : Client) (s : Scene Traffic) (placed : Placed) :
    (c.publish s placed).1.bus.takings = s.bus.takings := by
  unfold publish
  split
  · rfl
  · rename_i bus accepted
    exact Bus.takings_publish? accepted

end Client

/-! ### Runs -/

namespace Relay

variable (apart : (posts.map (·.2.topic)).Nodup)

include apart

theorem take_staffed (staffed : Staffed posts x.scene.bus x.stations) (i : Nat) :
    Staffed posts (x.take i).scene.bus (x.take i).stations := by
  unfold take
  split
  · rename_i t here
    split
    · rename_i took
      obtain ⟨own, n, more, takings⟩ := Worker.take?_takings took
      exact staffed.set apart here own more takings
    · exact staffed
  · exact staffed

theorem go_staffed (staffed : Staffed posts x.scene.bus x.stations) (i k : Nat) :
    Staffed posts (x.go i k).scene.bus (x.go i k).stations := by
  unfold go
  split
  · rename_i t here
    split
    · rename_i went
      obtain ⟨own, none⟩ := Worker.goAt?_consumer_taken went
      refine staffed.set apart here own (n := 0) none ?_
      intro name
      rw [ite_self, (Worker.goAt?_stays went).takings]
      rfl
    · exact staffed
  · exact staffed

theorem step_staffed (staffed : Staffed posts x.scene.bus x.stations) (act : Act) :
    Staffed posts (x.step act).scene.bus (x.step act).stations := by
  cases act with
  | take i => exact take_staffed apart staffed i
  | go i k => exact go_staffed apart staffed i k
  | place name id request =>
    have same := x.client.place_bus x.scene id request
    dsimp only [step]
    unfold place
    split
    · rename_i placed
      rw [placed] at same
      exact same ▸ staffed
    · rename_i placed
      rw [placed] at same
      exact same ▸ staffed
  | publish i =>
    dsimp only [step]
    unfold publish
    split
    · rename_i p _
      have published := staffed.withBus (x.client.publish_takings x.scene p)
      dsimp only
      split
      · exact published
      · exact published
    · exact staffed
  | accept topic message =>
    dsimp only [step]
    unfold accept
    split
    · rename_i accepted
      exact staffed.withBus (Bus.takings_publish? accepted)
    · exact staffed
  -- the other acts change neither the bus nor the stations
  | withdraw i =>
    dsimp only [step]
    unfold withdraw
    split
    · exact staffed
    · exact staffed
  | look w =>
    dsimp only [step]
    unfold look
    split
    · exact staffed
    · exact staffed
  | leave serial =>
    dsimp only [step]
    unfold leave
    split
    · exact staffed
    · exact staffed
  | sweep | cancel _ | reaper _ | collect | pass _ | stop => exact staffed

theorem after_staffed (staffed : Staffed posts x.scene.bus x.stations) (acts : List Act) :
    Staffed posts (x.after acts).scene.bus (x.after acts).stations := by
  induction acts generalizing x with
  | nil => exact staffed
  | cons act rest ih => exact ih (step_staffed apart staffed act)

end Relay

/-- A run of a relay leaves every topic with the consumer that asked for it first. -/
theorem Relay.after_serves_iff (c : Client) (p : Platform) (consumers : List (Role × Consumer))
    (hash : String → UInt64) (acts : List Relay.Act) (role : Role) (topic : String) :
    Serves ((start c p consumers hash).after acts).scene.bus ((start c p consumers hash).after acts).stations
        role topic ↔
      (consumers.find? (·.2.topic = topic)).map (·.1) = some role := by
  have apart := Exchange.enlist_apart .empty consumers
  have start : Staffed _ (start c p consumers hash).scene.bus (start c p consumers hash).stations :=
    Exchange.enlist_staffed consumers
  rw [(after_staffed apart start acts).serves_iff apart, Exchange.enlist_find?]
  exact Iff.rfl

/-! ### Bridges -/

/-- Who serves the topics of a bridge. Dead letters come before requests, and requests before replies. -/
structure Wired (t : Exchange.Topics) (bus : Bus) (stations : List Station) : Prop where
  requests : Serves bus stations .requests t.requests ↔ t.suffix ≠ "" ∧ t.requests ≠ t.replies ++ t.suffix
  replies : Serves bus stations .replies t.replies ↔
    t.suffix ≠ "" ∧ t.replies ≠ t.requests ++ t.suffix ∧ t.replies ≠ t.requests
  deadLetters : ∀ topic ∈ [t.requests, t.replies], Serves bus stations .deadLetters (topic ++ t.suffix)
  served : ∀ topic ∈ [t.requests, t.replies], ∃ role, Serves bus stations role topic

theorem Exchange.Topics.first_consumer (t : Topics) (topic : String) :
    (t.consumers.find? (·.2.topic = topic)).map (·.1) =
      if t.requests ++ t.suffix = topic ∨ t.replies ++ t.suffix = topic then some .deadLetters
      else if t.requests = topic then some .requests
      else if t.replies = topic then some .replies
      else none := by
  dsimp only [consumers, consumer, Consumer.deadLetterTopic]
  generalize t.requests ++ t.suffix = one, t.replies ++ t.suffix = two
  by_cases first : one = topic
  · simp [first]
  · by_cases second : two = topic
    · simp [first, second]
    · by_cases third : t.requests = topic
      · simp [first, second, third]
      · by_cases fourth : t.replies = topic
        · simp [first, second, third, fourth]
        · simp [first, second, third, fourth]

theorem Exchange.Topics.wired {t : Topics} (serves : ∀ role topic, Serves bus stations role topic ↔
    (t.consumers.find? (·.2.topic = topic)).map (·.1) = some role) : Wired t bus stations := by
  simp only [t.first_consumer] at serves
  constructor
  case requests =>
    rw [serves]
    split
    · rename_i dead
      refine iff_of_false nofun ?_
      rintro ⟨suffixed, apart⟩
      rcases dead with same | same
      · exact suffixed (String.append_eq_left_iff.mp same)
      · exact apart same.symm
    · rename_i alive
      rw [if_pos rfl]
      refine iff_of_true rfl ⟨?_, ?_⟩
      · exact fun none => alive (Or.inl (String.append_eq_left_iff.mpr none))
      · exact fun same => alive (Or.inr same.symm)
  case replies =>
    rw [serves]
    split
    · rename_i dead
      refine iff_of_false nofun ?_
      rintro ⟨suffixed, apart, _⟩
      rcases dead with same | same
      · exact apart same.symm
      · exact suffixed (String.append_eq_left_iff.mp same)
    · rename_i alive
      split
      · rename_i same
        exact iff_of_false nofun fun free => free.2.2 same.symm
      · rename_i apart
        rw [if_pos rfl]
        refine iff_of_true rfl ⟨?_, ?_, Ne.symm apart⟩
        · exact fun none => alive (Or.inr (String.append_eq_left_iff.mpr none))
        · exact fun same => alive (Or.inl same.symm)
  case deadLetters =>
    intro topic member
    rw [serves, if_pos]
    rcases List.mem_pair.mp member with rfl | rfl
    · exact Or.inl rfl
    · exact Or.inr rfl
  case served =>
    intro topic member
    simp only [serves]
    split
    · exact ⟨_, rfl⟩
    · split
      · exact ⟨_, rfl⟩
      · rename_i apart
        obtain rfl := (List.mem_pair.mp member).resolve_left (Ne.symm apart)
        exact ⟨_, if_pos rfl⟩

namespace Bridge

variable {files : Files} {settings : Settings} {transport : Transport} {hash : String → UInt64}
  {start : Exchange}

theorem exists_start (started : Bridge.start files settings transport hash = .ok start) : ∃ signer resolver,
    Bridge.signer files settings = .ok signer ∧ Bridge.resolver files settings = .ok resolver ∧
      start = .start (.create (settings.client signer) settings.endpoint)
        (settings.platform signer resolver transport) settings.topics hash := by
  obtain ⟨signer, signs, rest⟩ := bind_ok started
  obtain ⟨resolver, resolves, rest⟩ := bind_ok rest
  exact ⟨signer, resolver, signs, resolves, (Except.ok.inj rest).symm⟩

theorem reached_wired (started : Bridge.start files settings transport hash = .ok start) {session : ExchangeSession}
    (reached : ExchangeSession.Reached start session) :
    Wired settings.topics session.exchange.scene.bus session.exchange.stations := by
  obtain ⟨signer, resolver, _, _, rfl⟩ := exists_start started
  obtain ⟨acts, scene, stations, _⟩ := ExchangeSession.reached_run reached
  rw [← scene, ← stations]
  exact Exchange.Topics.wired (Relay.after_serves_iff _ _ _ _ acts)

end Bridge

end

/-! ### A bridge that starts -/

deriving instance DecidableEq for PrivateKey

namespace Rsa.Sample

open Der (Element)

def identifier : Element :=
  .ofItems [⟨Der.Tag.objectId, [0x2A, 0x86, 0x48, 0x86, 0xF7, 0x0D, 0x01, 0x01, 0x01]⟩, ⟨Der.Tag.null, []⟩]

def privateFile : List UInt8 :=
  let numbers := [0, key.modulus, key.publicExponent, key.exponent, p, q, key.exponent % (p - 1),
    key.exponent % (q - 1), powMod q (p - 2) p]
  let inner := Element.ofItems (numbers.map .ofNatural)
  Der.write (.ofItems [.ofNatural 0, identifier, ⟨Der.Tag.octetString, Der.write inner⟩])

def publicFile : List UInt8 :=
  let inner := Element.ofItems [.ofNatural key.modulus, .ofNatural key.publicExponent]
  Der.write (.ofItems [identifier, ⟨Der.Tag.bitString, 0 :: Der.write inner⟩])

theorem privateFile_read : Keys.readPrivate privateFile = .ok (.rsa key) := by
  have binary : Keys.isText privateFile = false := by decide +kernel
  have read : PrivateKey.ofBytes? privateFile = some (.rsa key) := by decide +kernel
  rw [Keys.readPrivate, binary]
  simp only [Bool.false_eq_true, if_false, read]

theorem publicFile_read : Keys.readPublic publicFile = .ok (.rsa key.toPublic) := by
  have read : Keys.publicKey? publicFile = some (.rsa key.toPublic) := by decide +kernel
  rw [Keys.readPublic, read]

end Rsa.Sample

namespace Bridge.Sample

def files : Files := ⟨[(["s"], Rsa.Sample.privateFile), (["v"], Rsa.Sample.publicFile)], []⟩

/-- Standard settings but for the files of the keys and the topic of the replies. -/
def settings (replies : String) : Settings where
  calls := .standard
  security := { SecuritySettings.standard with
    signing := { SigningSettings.standard with signKeyFile := "s", verifyKeyFile := "v" } }
  bus := { BusSettings.standard with repliesTopic := replies }

def transport : Transport := fun _ call => ⟨0, .ok call.payload⟩

theorem parts_name {name : String} (named : name = "s" ∨ name = "v") : Files.parts name = [name] := by
  -- no slash at the one character of the name, and nothing behind it
  rcases named with rfl | rfl
  all_goals
    unfold Files.parts String.splitOn
    rw [if_neg (by decide +kernel), String.splitOnAux, if_neg (by decide +kernel), if_neg (by decide +kernel),
      String.splitOnAux, if_pos (by decide +kernel)]
    decide +kernel

theorem read_of_entry {t : Files} {name : String} {bytes : List UInt8} (named : name = "s" ∨ name = "v")
    (top : t.entry? [] = some .folder) (found : t.entry? [name] = some (.file bytes)) : t.read name = .ok bytes := by
  have looked : t.lookup name = .ok (.file bytes) := by
    unfold Files.lookup
    rw [parts_name named]
    rcases named with rfl | rfl
    · simp +decide [Files.walk, top, found]
    · simp +decide [Files.walk, top, found]
  rw [Files.read, looked]
  rfl

theorem private_found (a b : List UInt8) : Files.read ⟨[(["s"], a), (["v"], b)], []⟩ "s" = .ok a :=
  read_of_entry (Or.inl rfl) rfl rfl

theorem public_found (a b : List UInt8) : Files.read ⟨[(["s"], a), (["v"], b)], []⟩ "v" = .ok b :=
  read_of_entry (Or.inr rfl) rfl rfl

theorem signer_made (replies : String) : Bridge.signer files (settings replies) = .ok Rsa.Sample.signer := by
  have family : KeyFamily.ofName? "RSA" = some .rsa := by decide +kernel
  have algorithm : SignatureAlgorithm.ofName? "SHA256withRSA" = some ⟨.sha256, .rsa⟩ := by decide +kernel
  have options : (settings replies).signingOptions =
      .ok ⟨.rsa, "s", "v", "default", ⟨.sha256, .rsa⟩⟩ := by
    have name : SignatureAlgorithm.name ⟨.sha256, .rsa⟩ = "SHA256withRSA" := by decide +kernel
    have named : (settings replies).security.signing.signature = "SHA256withRSA" := name
    have keyType : (settings replies).security.signing.keyType = "RSA" := rfl
    unfold Settings.signingOptions
    dsimp only
    rw [keyType, family, named, algorithm]
    rfl
  have loaded : Signer.load files ⟨.rsa, "s", "v", "default", ⟨.sha256, .rsa⟩⟩ = .ok Rsa.Sample.signer := by
    unfold Signer.load readKeyFile files
    dsimp only
    rw [private_found, public_found]
    dsimp only [bind, Except.bind]
    rw [Rsa.Sample.privateFile_read, Rsa.Sample.publicFile_read]
    exact Rsa.Sample.signer_made
  unfold Bridge.signer
  rw [options]
  show (Signer.load files _).mapError _ = _
  rw [loaded]
  rfl

theorem resolver_made (replies : String) : ∃ resolver, Bridge.resolver files (settings replies) = .ok resolver := by
  have check : Tls.HostnameCheck.ofName "standard" = .ok .standard := by decide +kernel
  have named : (settings replies).calls.hostnameVerification = "standard" := rfl
  unfold Bridge.resolver Settings.tlsOptions
  rw [named, check]
  exact ⟨_, rfl⟩

theorem exists_started (replies : String) (hash : String → UInt64) :
    ∃ start, Bridge.start files (settings replies) transport hash = .ok start := by
  obtain ⟨resolver, resolves⟩ := resolver_made replies
  unfold Bridge.start
  rw [signer_made, resolves]
  exact ⟨_, rfl⟩

end Bridge.Sample

/-! ### Every bridge that starts -/

/-- Whatever its settings, a bridge that starts has one consumer for each of its topics in all of its runs, also
if its parts act in another order. It is the right one unless the topic is one of the dead letters too, or
requests and replies share it. -/
theorem Bridge.topics_served {files : Files} {settings : Settings} {transport : Transport}
    {hash : String → UInt64} {start : Exchange} (started : Bridge.start files settings transport hash = .ok start) :
    (∀ session, ExchangeSession.Reached start session →
      Wired settings.topics session.exchange.scene.bus session.exchange.stations) ∧
    ∀ acts, Wired settings.topics
      ((Relay.start start.front.client start.platform settings.topics.consumers hash).after acts).scene.bus
      ((Relay.start start.front.client start.platform settings.topics.consumers hash).after acts).stations :=
  ⟨fun _ reached => Bridge.reached_wired started reached,
    fun acts => Exchange.Topics.wired (Relay.after_serves_iff _ _ _ _ acts)⟩

/-- With standard topics requests and replies are served as they should be. -/
theorem Bridge.topics_served_of_standard : ∃ start, Bridge.start Bridge.Sample.files
    (Bridge.Sample.settings "replies") Bridge.Sample.transport Registry.mix = .ok start ∧
      ∀ session, ExchangeSession.Reached start session →
        Serves session.exchange.scene.bus session.exchange.stations .requests "requests" ∧
        Serves session.exchange.scene.bus session.exchange.stations .replies "replies" := by
  obtain ⟨start, started⟩ := Bridge.Sample.exists_started "replies" Registry.mix
  refine ⟨start, started, ?_⟩
  intro session reached
  have wired := (Bridge.topics_served started).1 session reached
  constructor
  · exact wired.requests.mpr (by decide)
  · exact wired.replies.mpr (by decide)

/-- Replies are lost if their topic is named like that of the dead letters of requests. -/
theorem Bridge.replies_logged_as_deadLetters : ∃ start, Bridge.start Bridge.Sample.files
    (Bridge.Sample.settings "requests.DLT") Bridge.Sample.transport Registry.mix = .ok start ∧
      ∀ session, ExchangeSession.Reached start session →
        Serves session.exchange.scene.bus session.exchange.stations .deadLetters "requests.DLT" ∧
        ¬Serves session.exchange.scene.bus session.exchange.stations .replies "requests.DLT" := by
  obtain ⟨start, started⟩ := Bridge.Sample.exists_started "requests.DLT" Registry.mix
  refine ⟨start, started, ?_⟩
  intro session reached
  have wired := Bridge.reached_wired started reached
  constructor
  · exact wired.deadLetters "requests" (List.mem_cons_self ..)
  · intro served
    exact (wired.replies.mp served).2.1 rfl

end SoapRelay
