import ConfidentialPolicy.EnvRule.Basic
import ConfidentialPolicy.Role

namespace ConfidentialPolicy.EnvRule

def anyValue (name : String) : EnvRule := make name ".+" .re2 false

def exactly (name value : String) : EnvRule := make name value .string false

def injectedUser : List EnvRule := [
  exactly "TERM" "xterm",
  anyValue "((?i)FABRIC)_.+",
  anyValue "HOSTNAME",
  anyValue "T(E)?MP",
  anyValue "FabricPackageFileName",
  anyValue "HostedServiceName",
  anyValue "IDENTITY_API_VERSION",
  anyValue "IDENTITY_HEADER",
  anyValue "IDENTITY_SERVER_THUMBPRINT",
  anyValue "azurecontainerinstance_restarted_by"]

def injectedVirtualNode : List EnvRule := [
  anyValue "KUBERNETES_SERVICE_HOST",
  anyValue "KUBERNETES_SERVICE_PORT",
  anyValue "KUBERNETES_SERVICE_PORT_HTTPS",
  anyValue "KUBERNETES_PORT",
  anyValue "KUBERNETES_PORT_443_TCP",
  anyValue "KUBERNETES_PORT_443_TCP_PROTO",
  anyValue "KUBERNETES_PORT_443_TCP_ADDR",
  anyValue "KUBERNETES_PORT_443_TCP_PORT"]

def injectedWorkloadIdentity : List EnvRule := [
  anyValue "AZURE_CLIENT_ID",
  anyValue "AZURE_TENANT_ID",
  exactly "AZURE_FEDERATED_TOKEN_FILE" "/var/run/secrets/azure/tokens/azure-identity-token",
  anyValue "AZURE_AUTHORITY_HOST"]

end ConfidentialPolicy.EnvRule
