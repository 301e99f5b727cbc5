/-
The topics the daemon publishes its driver list and its discoveries under: what
`readJSON` leaves in `m_topicDrivers` and `m_topicDiscovery`, for every
configuration it accepts. The constructor puts the base into their defaults, and
`readJSON` puts it in front of what it finds there.
-/
import MqttVscpd.ReadJsonFrame
import MqttVscpd.DriverConfig

namespace MqttVscpd

open Trying

variable {j : Json} {env : Environment} {key : String}

/-- The base and the topics made of it. -/
structure Topics where
  base : String
  drivers : String
  discovery : String

def ControlObject.topics (c : ControlObject) : Topics := ⟨c.topicDaemonBase, c.topicDrivers, c.topicDiscovery⟩

/-- The change that holds the topics at those of `c`. -/
def holdTopics (c : ControlObject) : TopicChange where
  base _ := c.topicDaemonBase
  drivers _ := c.topicDrivers
  discovery _ := c.topicDiscovery

/-- What does not see the topics leaves them as they are. -/
theorem topics_of_commutes {α : Type} {m : Ctl α} {c c' : ControlObject} {r : Except Failure α}
    (hm : Commutes (Change.applyWith {} (holdTopics c)) m) (h : exec m c = (r, c')) : c'.topics = c.topics := by
  have hc' : (exec m c).2 = c' := by rw [h]
  rw [← hc', ← hm.fixed rfl]
  rfl

/-! ## The topics of an MQTT block -/

/-- What `readJSON` makes of the topics it finds, under an MQTT block. -/
def Topics.read (m : Json) (t : Topics) : Topics :=
  let base := (m.string? "topic-daemon-base").getD t.base
  ⟨base, base ++ (m.string? "topic-drivers").getD t.drivers, base ++ (m.string? "topic-discovery").getD t.discovery⟩

/-- A topic is set when the block has it. -/
theorem topics_readTopic (put : String → Topics → Topics) {m : Json} {c c' : ControlObject} {r : Except Failure Unit}
    {set : String → ControlObject → ControlObject} {missing : String} (hm : j.index "mqtt" = .ok m)
    (hs : OptionalString m key) (hset : ∀ s c, (set s c).topics = put s c.topics)
    (h : exec (readTopic j key set missing) c = (r, c')) :
    c'.topics = (m.string? key).elim c.topics fun s => put s c.topics := by
  unfold readTopic at h
  rw [exec_lift_bind hm] at h
  cases hf : m.find? key with
  | none =>
    rw [if_neg (contains_of_absent hf)] at h
    cases h
    rw [Json.string?, hf]
    rfl
  | some v =>
    obtain ⟨s, hget⟩ := Json.getString_of_isString (hs v hf)
    have hstring : m.string? key = some s := by
      rw [string?_eq_some, hf]
      cases v <;> cases hget
      rfl
    rw [if_pos (contains_of_find hf), exec_lift_bind hm, exec_lift_bind (Json.index_of_find hf),
      exec_lift_bind hget] at h
    cases h
    rw [hstring, Option.elim_some, ← hset]
    rfl

/-- An empty base in front of a topic is none. -/
theorem topics_addTopicBase (c : ControlObject) :
    (addTopicBase c).topics =
      ⟨c.topics.base, c.topics.base ++ c.topics.drivers, c.topics.base ++ c.topics.discovery⟩ := by
  unfold addTopicBase
  by_cases h : c.topicDaemonBase.length ≠ 0
  · rw [if_pos h]
    rfl
  · have hempty : c.topicDaemonBase = "" := by simpa using h
    rw [if_neg h, ControlObject.topics, hempty, String.empty_append, String.empty_append]

/-- A block `readJSON` goes on from is taken by the client, and its topics are strings. -/
theorem topicsRead_of_readMqtt {m : Json} {c c' : ControlObject} (hm : ObjectUnder j "mqtt" m)
    (h : exec (readMqtt env j) c = (.ok true, c')) : env.initFromJson m = true ∧ TopicsRead m := by
  have hinit : env.initFromJson m = true := by
    by_contra hi
    have hrefused : MqttRefused env j := ⟨m, hm, by simpa using hi⟩
    have hread : MqttRead env j := by
      intro m' hm' hi'
      rw [hm'.unique hm] at hi'
      exact absurd hi' hi
    have hfalse := settles_readMqtt.refuses hread hrefused c
    rw [h] at hfalse
    cases hfalse
  refine ⟨hinit, ?_⟩
  by_contra ht
  obtain ⟨e, he⟩ := settles_readMqtt.throws fun hread : MqttRead env j => ht (hread m hm hinit)
  have herror := he c
  rw [h] at herror
  cases herror

theorem topics_readMqtt {m : Json} {c c' : ControlObject} (hm : ObjectUnder j "mqtt" m)
    (h : exec (readMqtt env j) c = (.ok true, c')) : c'.topics = c.topics.read m := by
  obtain ⟨hinit, htopics⟩ := topicsRead_of_readMqtt hm h
  have hidx := Json.index_of_find hm.1
  unfold readMqtt at h
  rw [exec_bind_of_ok ((ends_holdsObject hm).exec_eq c)] at h
  have hholds : (exec (holdsObject j "mqtt") c).2.topics = c.topics :=
    topics_of_commutes commutes_holdsObject rfl
  generalize (exec (holdsObject j "mqtt") c).2 = c₀ at h hholds
  simp only [Bool.not_true, Bool.false_eq_true, if_false] at h
  rw [exec_lift_bind hidx] at h
  obtain ⟨_, c₁, h₁, h⟩ := exec_bind_ok h
  have hclient : c₁.topics = c₀.topics := by
    cases h₁
    rfl
  simp only [hinit, Bool.not_true, Bool.false_eq_true, if_false] at h
  obtain ⟨_, c₂, h₂, h⟩ := exec_bind_ok h
  obtain ⟨_, c₃, h₃, h⟩ := exec_bind_ok h
  obtain ⟨_, c₄, h₄, h⟩ := exec_bind_ok h
  rw [exec_bind_of_ok (exec_modify _ _), exec_pure] at h
  have hc' : addTopicBase c₄ = c' := congrArg Prod.snd h
  have hbase := topics_readTopic (fun s t => { t with base := s }) hidx (htopics _ (by decide)) (fun _ _ => rfl) h₂
  have hdrivers :=
    topics_readTopic (fun s t => { t with drivers := s }) hidx (htopics _ (by decide)) (fun _ _ => rfl) h₃
  have hdiscovery :=
    topics_readTopic (fun s t => { t with discovery := s }) hidx (htopics _ (by decide)) (fun _ _ => rfl) h₄
  rw [← hc', topics_addTopicBase, hdiscovery, hdrivers, hbase, hclient, hholds, Topics.read]
  cases m.string? "topic-daemon-base" <;> cases m.string? "topic-drivers" <;> cases m.string? "topic-discovery" <;> rfl

/-- An accepted configuration with an MQTT block has read it, the sections before it leaving the topics alone. -/
theorem readMqtt_of_readJSON {c c' : ControlObject} (h : exec (readJSON env j) c = (.ok true, c')) :
    ∃ c₁ c₂, exec (readMqtt env j) c₁ = (.ok true, c₂) ∧ c₁.topics = c.topics ∧ c'.topics = c₂.topics := by
  rw [readJSON_eq] at h
  obtain ⟨c₁, h₁, h⟩ := exec_andM_true h
  obtain ⟨c₂, h₂, h⟩ := exec_andM_true h
  obtain ⟨c₃, h₃, h⟩ := exec_andM_true h
  obtain ⟨c₄, h₄, h₅⟩ := exec_andM_true h
  have hgeneral := topics_of_commutes (commutes_readGeneral _ env j) h₁
  have hkey := topics_of_commutes (commutes_readVscpKey rfl) h₂
  have hlogging := topics_of_commutes (commutes_readLogging fun _ => ⟨rfl, rfl⟩) h₃
  exact ⟨c₃, c₄, h₄, hlogging.trans (hkey.trans hgeneral), topics_of_commutes (commutes_readDrivers rfl) h₅⟩

/-! ## Base and leaf -/

/-- The base of an MQTT block that names none. -/
def defaultBase : String := "vscp-daemon/\x7b\x7bsrvguid\x7d\x7d/"

/-- The topics are the base and a leaf: the block's own, or the default ones. So the base comes once
before the leaf, also before one that itself begins with the base. -/
structure BaseAndLeaf (m : Json) (c : ControlObject) : Prop where
  drivers : c.topicDrivers =
    (m.string? "topic-daemon-base").getD defaultBase ++ (m.string? "topic-drivers").getD "drivers"
  discovery : c.topicDiscovery =
    (m.string? "topic-daemon-base").getD defaultBase ++ (m.string? "topic-discovery").getD "discovery"

/-- A topic is its base and its leaf when the block gives the leaf: the default has a base of its own. -/
theorem append_getD_iff (base leaf : String) (given : Option String) :
    base ++ given.getD (defaultBase ++ leaf) = base ++ given.getD leaf ↔ given.isSome = true := by
  cases given with
  | some s => simp
  | none =>
    refine ⟨fun h => ?_, fun h => by cases h⟩
    have hlen := congrArg String.length h
    have hbase : defaultBase.length = 24 := rfl
    simp only [Option.getD_none, String.length_append, hbase] at hlen
    omega

theorem isSome_string? {m : Json} (hs : OptionalString m key) : (m.string? key).isSome = m.contains key := by
  unfold Json.string? Json.contains
  cases hf : m.find? key with
  | none => rfl
  | some v =>
    have hv := hs v hf
    cases v <;> first | rfl | cases hv

/-- **Topics are base and leaf exactly when** the MQTT block gives both leaves:
the default of an absent one already holds the default base. -/
theorem base_and_leaf_iff (env : Environment) (j m : Json) (key : Vector UInt8 32) (c : ControlObject)
    (hm : ObjectUnder j "mqtt" m) (h : exec (readJSON env j) { vscpKey := key } = (.ok true, c)) :
    BaseAndLeaf m c ↔ m.contains "topic-drivers" = true ∧ m.contains "topic-discovery" = true := by
  obtain ⟨c₁, c₂, hmqtt, hbefore, hafter⟩ := readMqtt_of_readJSON h
  have htopics : c.topics = Topics.read m ⟨defaultBase, defaultBase ++ "drivers", defaultBase ++ "discovery"⟩ := by
    rw [hafter, topics_readMqtt hm hmqtt, hbefore]
    rfl
  have hdrivers : c.topicDrivers = (m.string? "topic-daemon-base").getD defaultBase ++
      (m.string? "topic-drivers").getD (defaultBase ++ "drivers") := congrArg Topics.drivers htopics
  have hdiscovery : c.topicDiscovery = (m.string? "topic-daemon-base").getD defaultBase ++
      (m.string? "topic-discovery").getD (defaultBase ++ "discovery") := congrArg Topics.discovery htopics
  have hread := (topicsRead_of_readMqtt hm hmqtt).2
  rw [← isSome_string? (hread _ (by decide)), ← isSome_string? (hread _ (by decide)),
    ← append_getD_iff _ "drivers" (m.string? "topic-drivers"),
    ← append_getD_iff _ "discovery" (m.string? "topic-discovery"), ← hdrivers, ← hdiscovery]
  exact ⟨fun hb => ⟨hb.drivers, hb.discovery⟩, fun hb => ⟨hb.1, hb.2⟩⟩

/-- The required settings, with this `mqtt` block. -/
def mqttConfig (mqtt : Json) : Json :=
  .obj [("runasuser", .str "vscp"), ("guid", .str "00:00:00:00:00:00:00:00:00:00:00:00:00:00:00:00"),
    ("servername", .str "local"), ("classtypedb", .str "vscp_events.sqlite3"), ("maindb", .str "vscpd.sqlite3"),
    ("mqtt", mqtt)]

/-- No file can be found, and every MQTT configuration is taken. -/
def takingEnvironment : Environment := { bareEnvironment with initFromJson := fun _ => true }

/-- Without a leaf for discoveries, the default base comes twice. -/
theorem not_base_and_leaf_default : ∃ c,
    exec (readJSON takingEnvironment (mqttConfig (.obj [("topic-drivers", .str "list")])))
      { vscpKey := Vector.replicate 32 0 } = (.ok true, c) ∧
    c.topicDiscovery = defaultBase ++ defaultBase ++ "discovery" ∧
    ¬ BaseAndLeaf (.obj [("topic-drivers", .str "list")]) c := by
  refine ⟨_, rfl, rfl, ?_⟩
  intro h
  exact absurd h.discovery (by decide +kernel)

/-- With both leaves the default base comes once. -/
theorem base_and_leaf_given : ∃ c,
    exec (readJSON takingEnvironment
        (mqttConfig (.obj [("topic-drivers", .str "list"), ("topic-discovery", .str "seen")])))
      { vscpKey := Vector.replicate 32 0 } = (.ok true, c) ∧
    BaseAndLeaf (.obj [("topic-drivers", .str "list"), ("topic-discovery", .str "seen")]) c := by
  have hread : ∃ c, exec (readJSON takingEnvironment
        (mqttConfig (.obj [("topic-drivers", .str "list"), ("topic-discovery", .str "seen")])))
      { vscpKey := Vector.replicate 32 0 } = (.ok true, c) := ⟨_, rfl⟩
  obtain ⟨c, hc⟩ := hread
  exact ⟨c, hc, (base_and_leaf_iff _ _ _ _ c ⟨rfl, rfl⟩ hc).mpr ⟨by decide, by decide⟩⟩

end MqttVscpd
