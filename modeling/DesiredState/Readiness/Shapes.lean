import DesiredState.Readiness.PodShape

/-!
# Shapes of the built-in kinds

The members that objects of the built-in kinds have, whether a rule of readiness looks at them or
not.
-/

namespace DesiredState.Shape

/-! ## Common parts -/

/-- Conditions, with the names of their times. -/
def conditions (times : List String) (more : List (String × Shape)) : Shape :=
  list (object (each string ["type", "status", "reason", "message"] ++ each time times ++ more))

/-- Conditions that say when they came to be. -/
def changes : Shape := conditions ["lastTransitionTime"] []

/-- Conditions that also say when they were last looked at. -/
def probedChanges : Shape := conditions ["lastProbeTime", "lastTransitionTime"] []

/-- How fast replicas are replaced. -/
def rollout (members : List (String × Shape)) : Shape :=
  object [("type", string),
    ("rollingUpdate", object (("maxUnavailable", countOrShare) :: members))]

/-- What the specifications of all workloads have. -/
def workload : List (String × Shape) :=
  each int32 ["minReadySeconds", "revisionHistoryLimit"] ++
    [("selector", labelSelector), ("template", podTemplate)]

/-- The members of an object that has a specification and a status. -/
def specAndStatus (spec status : List (String × Shape)) : List (String × Shape) :=
  [("spec", object spec), ("status", object status)]

/-! ## Kinds -/

def «namespace» : Shape :=
  ofKind ⟨"", "v1", "Namespace"⟩ (specAndStatus [("finalizers", strings)]
    [("phase", string), ("conditions", changes)])

def deployment : Shape :=
  ofKind ⟨"apps", "v1", "Deployment"⟩ (specAndStatus
    (workload ++ each int32 ["progressDeadlineSeconds", "replicas"] ++
      [("paused", bool), ("strategy", rollout [("maxSurge", countOrShare)])])
    (each int32 ["availableReplicas", "collisionCount", "readyReplicas", "replicas",
      "unavailableReplicas", "updatedReplicas"] ++
      [("observedGeneration", int64),
        ("conditions", conditions ["lastTransitionTime", "lastUpdateTime"] [])]))

def volumeClaim : Shape :=
  ofKind ⟨"", "v1", "PersistentVolumeClaim"⟩ [("spec", claimSpec), ("status", object (
    each amounts ["allocatedResources", "capacity"] ++
    each string ["currentVolumeAttributesClassName", "phase"] ++
    [("accessModes", strings), ("allocatedResourceStatuses", labels),
      ("conditions", probedChanges),
      ("modifyVolumeStatus", object (each string ["status", "targetVolumeAttributesClassName"]))]))]

def statefulSet : Shape :=
  ofKind ⟨"apps", "v1", "StatefulSet"⟩ (specAndStatus
    (workload ++ each string ["podManagementPolicy", "serviceName"] ++
      [("replicas", int32), ("ordinals", object [("start", int32)]),
        ("persistentVolumeClaimRetentionPolicy",
          object (each string ["whenDeleted", "whenScaled"])),
        ("updateStrategy", rollout [("partition", int32)]),
        ("volumeClaimTemplates", list volumeClaim)])
    (each int32 ["availableReplicas", "collisionCount", "currentReplicas", "readyReplicas",
      "replicas", "updatedReplicas"] ++
      each string ["currentRevision", "updateRevision"] ++
      [("observedGeneration", int64), ("conditions", changes)]))

def daemonSet : Shape :=
  ofKind ⟨"apps", "v1", "DaemonSet"⟩ (specAndStatus
    (workload ++ [("updateStrategy", rollout [("maxSurge", countOrShare)])])
    (each int32 ["collisionCount", "currentNumberScheduled", "desiredNumberScheduled",
      "numberAvailable", "numberMisscheduled", "numberReady", "numberUnavailable",
      "updatedNumberScheduled"] ++
      [("observedGeneration", int64), ("conditions", changes)]))

/-- What follows from the way in which a pod failed. -/
def failureRule : Shape :=
  object [("action", string),
    ("onExitCodes", object [("containerName", string), ("operator", string),
      ("values", list int32)]),
    ("onPodConditions", list (object (each string ["status", "type"])))]

def job : Shape :=
  ofKind ⟨"batch", "v1", "Job"⟩ (specAndStatus
    (each int32 ["backoffLimit", "backoffLimitPerIndex", "completions", "maxFailedIndexes",
      "parallelism", "ttlSecondsAfterFinished"] ++
      each string ["completionMode", "podReplacementPolicy"] ++
      each bool ["manualSelector", "suspend"] ++
      [("activeDeadlineSeconds", int64), ("selector", labelSelector), ("template", podTemplate),
        ("podFailurePolicy", object [("rules", list failureRule)])])
    (each int32 ["active", "failed", "ready", "succeeded", "terminating"] ++
      each string ["completedIndexes", "failedIndexes"] ++
      each time ["completionTime", "startTime"] ++
      [("conditions", probedChanges),
        ("uncountedTerminatedPods", object (each strings ["failed", "succeeded"]))]))

def service : Shape :=
  ofKind ⟨"", "v1", "Service"⟩ (specAndStatus
    (each string ["clusterIP", "externalName", "externalTrafficPolicy", "internalTrafficPolicy",
      "ipFamilyPolicy", "loadBalancerClass", "loadBalancerIP", "sessionAffinity", "type"] ++
      each strings ["clusterIPs", "externalIPs", "ipFamilies", "loadBalancerSourceRanges"] ++
      each bool ["allocateLoadBalancerNodePorts", "publishNotReadyAddresses"] ++
      [("healthCheckNodePort", int32), ("selector", labels),
        ("ports", list (object (each string ["appProtocol", "name", "protocol"] ++
          each int32 ["nodePort", "port"] ++ [("targetPort", countOrShare)]))),
        ("sessionAffinityConfig", object [("clientIP", object [("timeoutSeconds", int32)])])])
    [("conditions", conditions ["lastTransitionTime"] [("observedGeneration", int64)]),
      ("loadBalancer", object [("ingress", list (object (
        each string ["hostname", "ip", "ipMode"] ++
        [("ports", list (object (("port", int32) :: each string ["error", "protocol"])))])))])])

def secret : Shape :=
  ofKind ⟨"", "v1", "Secret"⟩
    [("data", map bytes), ("stringData", labels), ("immutable", bool), ("type", string)]

def configMap : Shape :=
  ofKind ⟨"", "v1", "ConfigMap"⟩ [("data", labels), ("binaryData", map bytes), ("immutable", bool)]

end DesiredState.Shape
