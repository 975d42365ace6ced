import DesiredState.Object.Shape

/-!
# The shape of pods

The members that a pod has, from selectors and amounts of resources up to containers, volumes and
the template that workloads make their pods from.
-/

namespace DesiredState.Shape

/-! ## Common parts -/

def requirements : Shape :=
  list (object (("values", strings) :: each string ["key", "operator"]))

def labelSelector : Shape :=
  object [("matchLabels", labels), ("matchExpressions", requirements)]

/-- Amounts of resources by name. -/
def amounts : Shape := map string

def limitsAndRequests : List (String × Shape) := each amounts ["limits", "requests"]

/-- Another object of the same namespace. -/
def reference : Shape := object [("name", string)]

/-- An object of any kind, in this namespace unless there is a member for another. -/
def typedReference (members : List (String × Shape)) : Shape :=
  object (each string ["apiGroup", "kind", "name"] ++ members)

def nameAndValue : Shape := object (each string ["name", "value"])

/-- An object that need not be there, with more about it. -/
def optionalSource (members : List (String × Shape)) : Shape :=
  object ([("name", string), ("optional", bool)] ++ members)

def fieldReference : Shape := object (each string ["apiVersion", "fieldPath"])

def resourceReference : Shape := object (each string ["containerName", "divisor", "resource"])

/-- What a claim of a volume asks for. -/
def claimSpec : Shape :=
  object (
    each string ["storageClassName", "volumeAttributesClassName", "volumeMode", "volumeName"] ++
    [("accessModes", strings), ("dataSource", typedReference []),
      ("dataSourceRef", typedReference [("namespace", string)]),
      ("resources", object limitsAndRequests), ("selector", labelSelector)])

/-! ## Security -/

def securityOptions : List (String × Shape) :=
  each int64 ["runAsGroup", "runAsUser"] ++
    [("runAsNonRoot", bool),
      ("seLinuxOptions", object (each string ["level", "role", "type", "user"])),
      ("seccompProfile", object (each string ["localhostProfile", "type"])),
      ("windowsOptions", object (("hostProcess", bool) ::
        each string ["gmsaCredentialSpec", "gmsaCredentialSpecName", "runAsUserName"]))]

def containerSecurity : Shape :=
  object (securityOptions ++
    each bool ["allowPrivilegeEscalation", "privileged", "readOnlyRootFilesystem"] ++
    [("procMount", string), ("capabilities", object (each strings ["add", "drop"]))])

def podSecurity : Shape :=
  object (securityOptions ++
    [("fsGroup", int64), ("fsGroupChangePolicy", string), ("supplementalGroups", list int64),
      ("sysctls", list nameAndValue)])

/-! ## Containers -/

/-- What can be done in a container: run a command, or ask over the network. -/
def actions : List (String × Shape) :=
  [("exec", object [("command", strings)]),
    ("httpGet", object ([("httpHeaders", list nameAndValue), ("port", countOrShare)] ++
      each string ["host", "path", "scheme"])),
    ("tcpSocket", object [("host", string), ("port", countOrShare)])]

def probe : Shape :=
  object (actions ++
    each int32 ["failureThreshold", "initialDelaySeconds", "periodSeconds", "successThreshold",
      "timeoutSeconds"] ++
    [("grpc", object [("port", int32), ("service", string)]),
      ("terminationGracePeriodSeconds", int64)])

def lifecycle : Shape :=
  object (each (object (("sleep", object [("seconds", int64)]) :: actions))
    ["postStart", "preStop"])

/-- Where the value of a variable comes from. -/
def variableSource : Shape :=
  object (("fieldRef", fieldReference) :: ("resourceFieldRef", resourceReference) ::
    each (optionalSource [("key", string)]) ["configMapKeyRef", "secretKeyRef"])

/-- A container, with the members that only some containers have. -/
def container (members : List (String × Shape)) : Shape :=
  object (members ++
    each string ["image", "imagePullPolicy", "name", "restartPolicy", "terminationMessagePath",
      "terminationMessagePolicy", "workingDir"] ++
    each strings ["args", "command"] ++
    each bool ["stdin", "stdinOnce", "tty"] ++
    each probe ["livenessProbe", "readinessProbe", "startupProbe"] ++
    [("env", list (object (("valueFrom", variableSource) :: each string ["name", "value"]))),
      ("envFrom", list (object (("prefix", string) ::
        each (optionalSource []) ["configMapRef", "secretRef"]))),
      ("lifecycle", lifecycle),
      ("ports", list (object (each string ["hostIP", "name", "protocol"] ++
        each int32 ["containerPort", "hostPort"]))),
      ("resizePolicy", list (object (each string ["resourceName", "restartPolicy"]))),
      ("resources", object (("claims", list reference) :: limitsAndRequests)),
      ("securityContext", containerSecurity),
      ("volumeDevices", list (object (each string ["devicePath", "name"]))),
      ("volumeMounts", list (object (("readOnly", bool) ::
        each string ["mountPath", "mountPropagation", "name", "subPath", "subPathExpr"])))])

/-! ## Volumes -/

/-- Which keys become which files. -/
def keyFiles : Shape := list (object [("key", string), ("mode", int32), ("path", string)])

/-- Files that describe the pod itself. -/
def fieldFiles : Shape :=
  list (object [("fieldRef", fieldReference), ("mode", int32), ("path", string),
    ("resourceFieldRef", resourceReference)])

/-- A volume that may be open for reading only, with its other members that are strings. -/
def disk (names : List String) (members : List (String × Shape)) : Shape :=
  object (("readOnly", bool) :: each string names ++ members)

/-- A part of a projected volume. -/
def projection : Shape :=
  object [("clusterTrustBundle", object ([("labelSelector", labelSelector), ("optional", bool)] ++
      each string ["name", "path", "signerName"])),
    ("configMap", optionalSource [("items", keyFiles)]),
    ("downwardAPI", object [("items", fieldFiles)]),
    ("secret", optionalSource [("items", keyFiles)]),
    ("serviceAccountToken", object (("expirationSeconds", int64) ::
      each string ["audience", "path"]))]

/-- Volumes that are files made from other objects. -/
def fileVolumes : List (String × Shape) :=
  [("configMap", optionalSource [("defaultMode", int32), ("items", keyFiles)]),
    ("downwardAPI", object [("defaultMode", int32), ("items", fieldFiles)]),
    ("emptyDir", object (each string ["medium", "sizeLimit"])),
    ("ephemeral", object [("volumeClaimTemplate",
      object [("metadata", metadata), ("spec", claimSpec)])]),
    ("gitRepo", object (each string ["directory", "repository", "revision"])),
    ("hostPath", object (each string ["path", "type"])),
    ("persistentVolumeClaim", disk ["claimName"] []),
    ("projected", object [("defaultMode", int32), ("sources", list projection)]),
    ("secret", object [("defaultMode", int32), ("items", keyFiles), ("optional", bool),
      ("secretName", string)])]

/-- Volumes on disks that are reached over a network or belong to a machine. -/
def diskVolumes : List (String × Shape) :=
  let secret := [("secretRef", reference)]
  [("awsElasticBlockStore", disk ["fsType", "volumeID"] [("partition", int32)]),
    ("azureDisk", disk ["cachingMode", "diskName", "diskURI", "fsType", "kind"] []),
    ("azureFile", disk ["secretName", "shareName"] []),
    ("cephfs", disk ["path", "secretFile", "user"] (("monitors", strings) :: secret)),
    ("cinder", disk ["fsType", "volumeID"] secret),
    ("csi", disk ["driver", "fsType"]
      [("nodePublishSecretRef", reference), ("volumeAttributes", labels)]),
    ("fc", disk ["fsType"] (("lun", int32) :: each strings ["targetWWNs", "wwids"])),
    ("flexVolume", disk ["driver", "fsType"] (("options", labels) :: secret)),
    ("flocker", object (each string ["datasetName", "datasetUUID"])),
    ("gcePersistentDisk", disk ["fsType", "pdName"] [("partition", int32)]),
    ("glusterfs", disk ["endpoints", "path"] []),
    ("iscsi", disk ["fsType", "initiatorName", "iqn", "iscsiInterface", "targetPortal"]
      ([("lun", int32), ("portals", strings)] ++
        each bool ["chapAuthDiscovery", "chapAuthSession"] ++ secret)),
    ("nfs", disk ["path", "server"] []),
    ("photonPersistentDisk", object (each string ["fsType", "pdID"])),
    ("portworxVolume", disk ["fsType", "volumeID"] []),
    ("quobyte", disk ["group", "registry", "tenant", "user", "volume"] []),
    ("rbd", disk ["fsType", "image", "keyring", "pool", "user"] (("monitors", strings) :: secret)),
    ("scaleIO", disk ["fsType", "gateway", "protectionDomain", "storageMode", "storagePool",
      "system", "volumeName"] (("sslEnabled", bool) :: secret)),
    ("storageos", disk ["fsType", "volumeName", "volumeNamespace"] secret),
    ("vsphereVolume",
      object (each string ["fsType", "storagePolicyID", "storagePolicyName", "volumePath"]))]

def volume : Shape := object (("name", string) :: fileVolumes ++ diskVolumes)

/-! ## Placement -/

def nodeTerm : Shape := object (each requirements ["matchExpressions", "matchFields"])

def podTerm : Shape :=
  object ([("topologyKey", string)] ++ each labelSelector ["labelSelector", "namespaceSelector"] ++
    each strings ["matchLabelKeys", "mismatchLabelKeys", "namespaces"])

/-- A term that counts by its weight. -/
def weighted (name : String) (term : Shape) : Shape := object [(name, term), ("weight", int32)]

/-- Terms that should hold, and what has to. -/
def preference (preferred needed : Shape) : Shape :=
  object [("preferredDuringSchedulingIgnoredDuringExecution", list preferred),
    ("requiredDuringSchedulingIgnoredDuringExecution", needed)]

def affinity : Shape :=
  object (("nodeAffinity", preference (weighted "preference" nodeTerm)
      (object [("nodeSelectorTerms", list nodeTerm)])) ::
    each (preference (weighted "podAffinityTerm" podTerm) (list podTerm))
      ["podAffinity", "podAntiAffinity"])

def toleration : Shape :=
  object (("tolerationSeconds", int64) :: each string ["effect", "key", "operator", "value"])

def spread : Shape :=
  object ([("labelSelector", labelSelector), ("matchLabelKeys", strings)] ++
    each int32 ["maxSkew", "minDomains"] ++
    each string ["nodeAffinityPolicy", "nodeTaintsPolicy", "topologyKey", "whenUnsatisfiable"])

/-! ## Pods -/

def pod : Shape :=
  object (
    each string ["dnsPolicy", "hostname", "nodeName", "preemptionPolicy", "priorityClassName",
      "restartPolicy", "runtimeClassName", "schedulerName", "serviceAccount",
      "serviceAccountName", "subdomain"] ++
    each bool ["automountServiceAccountToken", "enableServiceLinks", "hostIPC", "hostNetwork",
      "hostPID", "hostUsers", "setHostnameAsFQDN", "shareProcessNamespace"] ++
    each int64 ["activeDeadlineSeconds", "terminationGracePeriodSeconds"] ++
    each (list (container [])) ["containers", "initContainers"] ++
    each (list reference) ["imagePullSecrets", "schedulingGates"] ++
    [("affinity", affinity),
      ("dnsConfig", object (("options", list nameAndValue) ::
        each strings ["nameservers", "searches"])),
      ("ephemeralContainers", list (container [("targetContainerName", string)])),
      ("hostAliases", list (object [("hostnames", strings), ("ip", string)])),
      ("nodeSelector", labels), ("os", reference), ("overhead", amounts), ("priority", int32),
      ("readinessGates", list (object [("conditionType", string)])),
      ("resourceClaims", list (object [("name", string), ("source",
        object (each string ["resourceClaimName", "resourceClaimTemplateName"]))])),
      ("securityContext", podSecurity), ("tolerations", list toleration),
      ("topologySpreadConstraints", list spread), ("volumes", list volume)])

def podTemplate : Shape := object [("metadata", metadata), ("spec", pod)]

end DesiredState.Shape
